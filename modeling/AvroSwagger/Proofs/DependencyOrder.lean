import AvroSwagger.Proofs.Exactness

/-!
# AvroSwagger.Proofs.DependencyOrder

**When every definition stands behind the definitions it refers to.**

The definitions list the names of the walk backwards, each at its last visit.  A
visit that is no revisit has everything it refers to behind it, but a revisit is
not walked below again.  So the order can only be broken by a record whose last
visit is a revisit and comes behind the last visit to something it refers to:
an object that two fields share, with a reference of its own.

Main statements:
  * `generateDefinitions_dependenciesFirst_iff`: dependencies come first exactly
    when no revisit comes too late;
  * `dependenciesFirst_of_shared_leaves`: they do if shared objects refer to
    nothing;
  * `exists_not_dependenciesFirst`: they do not for two fields that share an
    object with a reference.
-/

namespace AvroSwagger

open Swagger

/-- **Every reference of a definition leads to a name that is listed no later.** -/
def DependenciesFirst (defs : Definitions) : Prop :=
  ∀ kv ∈ defs, ∀ ref ∈ kv.2.refs, ∃ name ∈ defs.keys,
    ref = definitionRef name ∧ defs.keys.idxOf name ≤ defs.keys.idxOf kv.1

instance (defs : Definitions) : Decidable (DependenciesFirst defs) :=
  inferInstanceAs (Decidable (∀ kv ∈ defs, ∀ ref ∈ kv.2.refs, ∃ name ∈ defs.keys,
    ref = definitionRef name ∧ defs.keys.idxOf name ≤ defs.keys.idxOf kv.1))

/-- No schema of a route map uses a record inside its own definition. -/
def NoBackReferences (routes : RouteMap) : Prop :=
  ∀ route schema fullName, (route, schema) ∈ routes → ¬(Schema.named fullName).IsPart schema

/-- **No revisit comes too late**: where the last visit under a name is a revisit, everything
that the record's definition refers to is visited once more behind it. -/
def RevisitsInTime (walk : List Record) : Prop :=
  ∀ before r after, walk = before ++ r :: after → isRevisit before r = true →
    (∀ s ∈ after, s.shortName ≠ r.shortName) →
      ∀ v, r.definition = .ok v → ∀ ref ∈ v.refs, ∃ s ∈ after, ref = definitionRef s.shortName

theorem definitionRef_inj {a b : String} (h : definitionRef a = definitionRef b) : a = b :=
  (String.append_right_inj definitionsRoot).mp h

variable {routes : RouteMap} {defs : Definitions} {r : Record}

/-! ## §1. Where a reference of a reachable record leads. -/

/-- A reference leads to a record that the record refers to. -/
theorem exists_reference_of_mem_refs (hcons : Consistent routes) (hback : NoBackReferences routes)
    (hr : Reachable routes r) {v : SchemaObject} (hv : r.definition = .ok v) {ref : String}
    (href : ref ∈ v.refs) : ∃ s ∈ r.references, ref = definitionRef s.shortName := by
  obtain ⟨f, hf, name, hname, heq⟩ := RecordOf.exists_field_of_mem_refs hv href
  have hpart : f.type.core.IsPart (.record r) := .field hf f.type.core_isPart
  cases hcore : f.type.core with
  | record s =>
    rw [Schema.referredName?, hcore] at hname
    injection hname with hname
    refine ⟨s, (RecordOf.mem_references_iff (hcons.translatable r hr)).mpr ⟨f, hf, hcore⟩, ?_⟩
    rw [heq, hname]
  | named fullName =>
    obtain ⟨route, schema, hin, hrpart⟩ := hr.occursIn
    rw [hcore] at hpart
    exact absurd (hpart.trans hrpart) (hback route schema fullName hin)
  | _ =>
    rw [Schema.referredName?, hcore] at hname
    exact absurd hname (by simp)

/-- What a reachable record refers to is reachable. -/
theorem Reachable.of_mem_references (hr : Reachable routes r) {s : Record}
    (hs : s ∈ r.references) : Reachable routes s := by
  obtain ⟨f, hf, hcore⟩ := RecordOf.exists_field_of_mem_references hs
  exact .field hr hf hcore

/-- **No definition refers to its own name.**  The record referred to would have the same
definition and be smaller, and so on without end. -/
theorem definitionRef_self_not_mem_refs (hcons : Consistent routes)
    (hback : NoBackReferences routes) (hr : Reachable routes r) {v : SchemaObject}
    (hv : r.definition = .ok v) : definitionRef r.shortName ∉ v.refs := by
  induction hn : r.recordCount using Nat.strongRecOn generalizing r with
  | ind n ih =>
  intro href
  -- a record of the same name and definition, but smaller
  obtain ⟨s, hs, heq⟩ := exists_reference_of_mem_refs hcons hback hr hv href
  have hsr : Reachable routes s := hr.of_mem_references hs
  have hname : r.shortName = s.shortName := definitionRef_inj heq
  obtain ⟨w, hw⟩ := s.definition_isOk_iff.mpr (hcons.translatable s hsr)
  have hvw : v = w :=
    (same_iff_eq_of_definition hv hw).mp (hcons.agree r s hr hsr hname v w hv hw)
  have hlt := RecordOf.recordCount_lt_of_mem_references hs
  refine ih s.recordCount (by omega) hsr (by rw [hw, hvw]) rfl ?_
  rw [← hname]
  exact href

/-! ## §2. The order of the names. -/

/-- The entries carry the names of the visits. -/
theorem map_name_of_isFor {entries : List Entry} {walk : List Record}
    (h : List.Forall₂ Entry.IsFor entries walk) :
    entries.map Entry.name = walk.map RecordOf.shortName := by
  induction h with
  | nil => rfl
  | cons her _ ih => rw [List.map_cons, List.map_cons, her.1, ih]

/-- **A name is listed no later than another one exactly when it is visited once more behind
the last visit under the other one.** -/
theorem idxOf_keys_definitionsOf_le_iff {entries : List Entry} {before after : List Record}
    (hent : List.Forall₂ Entry.IsFor entries (before ++ r :: after))
    (hres : ∀ x ∈ before ++ r :: after, x.shortName ≠ responseName)
    (hlast : ∀ x ∈ after, x.shortName ≠ r.shortName) {s : Record}
    (hs : s ∈ before ++ r :: after) (hne : s.shortName ≠ r.shortName) :
    (definitionsOf entries).keys.idxOf s.shortName
        ≤ (definitionsOf entries).keys.idxOf r.shortName
      ↔ ∃ x ∈ after, x.shortName = s.shortName := by
  have hr : r ∈ before ++ r :: after := by simp
  -- the writes are the answering record's and those of the visits, backwards
  have hfst : ((responseName, responseDefinition)
        :: entries.reverse.map fun e => (e.name, e.value)).map Prod.fst
      = responseName
        :: (before.map RecordOf.shortName ++ r.shortName :: after.map RecordOf.shortName).reverse := by
    have hnames := congrArg List.reverse (map_name_of_isFor hent)
    rw [List.map_append, List.map_cons] at hnames
    rw [List.map_cons, List.map_map, ← hnames, ← List.map_reverse]
    rfl
  have hmem : ∀ x ∈ before ++ r :: after, x.shortName ∈ responseName
      :: (before.map RecordOf.shortName ++ r.shortName :: after.map RecordOf.shortName).reverse := by
    intro x hx
    have hx' : x.shortName ∈ (before ++ r :: after).map RecordOf.shortName :=
      List.mem_map_of_mem hx
    rw [List.map_append, List.map_cons] at hx'
    exact List.mem_cons_of_mem _ (List.mem_reverse.mpr hx')
  have hnot : r.shortName ∉ after.map RecordOf.shortName := by
    intro hin
    obtain ⟨x, hx, hxr⟩ := List.mem_map.mp hin
    exact hlast x hx hxr
  rw [definitionsOf, OrderedMap.idxOf_keys_ofList_le_iff (hfst ▸ hmem s hs) (hfst ▸ hmem r hr),
    hfst, List.idxOf_cons_ne _ (hres s hs).symm, List.idxOf_cons_ne _ (hres r hr).symm,
    Nat.succ_le_succ_iff, OrderedMap.idxOf_reverse_le_iff hnot hne, List.mem_map]

/-- Every name that is visited is visited a last time. -/
theorem exists_last_visit {walk : List Record} {name : String}
    (h : ∃ x ∈ walk, x.shortName = name) :
    ∃ before r after, walk = before ++ r :: after ∧ r.shortName = name
      ∧ ∀ s ∈ after, s.shortName ≠ name := by
  induction walk with
  | nil => simp at h
  | cons y rest ih =>
    by_cases hlater : ∃ x ∈ rest, x.shortName = name
    · obtain ⟨before, r, after, hrest, hr, hafter⟩ := ih hlater
      exact ⟨y :: before, r, after, by rw [hrest, List.cons_append], hr, hafter⟩
    · obtain ⟨x, hx, hname⟩ := h
      rcases List.mem_cons.mp hx with hxy | hx
      · refine ⟨[], y, rest, rfl, hxy ▸ hname, fun s hs hsn => ?_⟩
        exact hlater ⟨s, hs, hsn⟩
      · exact absurd ⟨x, hx, hname⟩ hlater

/-! ## §3. Dependencies come first. -/

/-- The records that are visited are the reachable ones. -/
theorem mem_visits_iff_reachable (hid : LabelsFaithful routes) (hcons : Consistent routes) :
    r ∈ visits [] (rootRecords routes) ↔ Reachable routes r := by
  rw [mem_visits_iff_mem_unfolding hid.identify]
  constructor
  · exact reachable_of_mem_unfolding
  · intro hr
    refine mem_unfolding_of_reachable (fun x hx => ?_) hr
    exact hcons.translatable x (reachable_of_mem_unfolding hx)

/-- Where no revisit comes too late, a reference is visited behind the last visit of the record
that makes it, whether or not that visit is a revisit. -/
theorem RevisitsInTime.exists_after (hcons : Consistent routes) (hback : NoBackReferences routes)
    (htime : RevisitsInTime (visits [] (rootRecords routes))) {before after : List Record}
    (hwalk : visits [] (rootRecords routes) = before ++ r :: after)
    (hlast : ∀ s ∈ after, s.shortName ≠ r.shortName) (hr : Reachable routes r) {v : SchemaObject}
    (hv : r.definition = .ok v) {ref : String} (href : ref ∈ v.refs) :
    ∃ s ∈ after, ref = definitionRef s.shortName := by
  cases hrev : isRevisit before r with
  | true => exact htime before r after hwalk hrev hlast v hv ref href
  | false =>
    obtain ⟨s, hs, heq⟩ := exists_reference_of_mem_refs hcons hback hr hv href
    exact ⟨s, mem_after_of_mem_references hwalk (by simpa using hrev) hs, heq⟩

/-- Where no revisit comes too late, dependencies come first. -/
theorem dependenciesFirst_of_revisitsInTime (hid : LabelsFaithful routes)
    (hback : NoBackReferences routes) (h : generateDefinitions routes .reject = .ok defs)
    (htime : RevisitsInTime (visits [] (rootRecords routes))) : DependenciesFirst defs := by
  have hcons : Consistent routes := consistent_of_generateDefinitions hid h
  obtain ⟨entries, hent, hdefs⟩ := exists_entries_of_generateDefinitions hid h
  intro kv hkv ref href
  have hfind : defs.find? kv.1 = some kv.2 :=
    OrderedMap.find?_eq_some_of_mem (nodup_keys_of_generateDefinitions hid h) hkv
  rcases (mem_keys_iff hid h kv.1).mp (List.mem_map_of_mem hkv) with hres | ⟨x, hx, hxn⟩
  · -- the answering record refers to nothing
    rw [hres, find?_responseName hid h] at hfind
    injection hfind with hfind
    rw [← hfind, refs_responseDefinition] at href
    exact absurd href (by simp)
  · obtain ⟨before, r, after, hwalk, hrn, hlast⟩ :=
      exists_last_visit ⟨x, (mem_visits_iff_reachable hid hcons).mpr hx, hxn⟩
    rw [← hrn] at hlast
    have hmem : ∀ y ∈ before ++ r :: after, Reachable routes y := fun y hy =>
      (mem_visits_iff_reachable hid hcons).mp (hwalk ▸ hy)
    have hr : Reachable routes r := hmem r (by simp)
    obtain ⟨v, hv, hvfind⟩ := find?_eq_some_of_reachable hid h hr
    rw [hrn, hfind] at hvfind
    injection hvfind with hvfind
    rw [hvfind] at href
    obtain ⟨s, hs, heq⟩ := htime.exists_after hcons hback hwalk hlast hr hv href
    have hsin : s ∈ before ++ r :: after := by simp [hs]
    refine ⟨s.shortName, ?_, heq, ?_⟩
    · exact (mem_keys_iff hid h _).mpr (Or.inr ⟨s, hmem s hsin, rfl⟩)
    · rw [hwalk] at hent
      rw [hdefs, ← hrn, idxOf_keys_definitionsOf_le_iff hent
        (fun y hy => hcons.unreserved y (hmem y hy)) hlast hsin (hlast s hs)]
      exact ⟨s, hs, rfl⟩

/-- Where dependencies come first, no revisit comes too late. -/
theorem revisitsInTime_of_dependenciesFirst (hid : LabelsFaithful routes)
    (hback : NoBackReferences routes) (h : generateDefinitions routes .reject = .ok defs)
    (hfirst : DependenciesFirst defs) : RevisitsInTime (visits [] (rootRecords routes)) := by
  have hcons : Consistent routes := consistent_of_generateDefinitions hid h
  obtain ⟨entries, hent, hdefs⟩ := exists_entries_of_generateDefinitions hid h
  intro before r after hwalk _ hlast v hv ref href
  have hmem : ∀ y ∈ before ++ r :: after, Reachable routes y := fun y hy =>
    (mem_visits_iff_reachable hid hcons).mp (hwalk ▸ hy)
  have hr : Reachable routes r := hmem r (by simp)
  obtain ⟨w, hw, hfind⟩ := find?_eq_some_of_reachable hid h hr
  rw [hv] at hw
  injection hw with hw
  obtain ⟨name, -, heq, hle⟩ :=
    hfirst (r.shortName, v) (OrderedMap.mem_of_find?_eq_some (hw ▸ hfind)) ref href
  obtain ⟨s, hs, hseq⟩ := exists_reference_of_mem_refs hcons hback hr hv href
  have hname : name = s.shortName := definitionRef_inj (heq.symm.trans hseq)
  -- the name referred to is another one, so its place tells of a visit behind the last one
  have hne : s.shortName ≠ r.shortName := by
    intro e
    rw [hseq, e] at href
    exact definitionRef_self_not_mem_refs hcons hback hr hv href
  have hsin : s ∈ before ++ r :: after := by
    rw [← hwalk]
    exact (mem_visits_iff_reachable hid hcons).mpr (hr.of_mem_references hs)
  rw [hwalk] at hent
  rw [hdefs, hname, idxOf_keys_definitionsOf_le_iff hent
    (fun y hy => hcons.unreserved y (hmem y hy)) hlast hsin hne] at hle
  obtain ⟨x, hx, hxn⟩ := hle
  exact ⟨x, hx, by rw [hxn, hseq]⟩

/-- **Dependencies come first exactly when no revisit comes too late.** -/
theorem generateDefinitions_dependenciesFirst_iff (hid : LabelsFaithful routes)
    (hback : NoBackReferences routes) (h : generateDefinitions routes .reject = .ok defs) :
    DependenciesFirst defs ↔ RevisitsInTime (visits [] (rootRecords routes)) :=
  ⟨revisitsInTime_of_dependenciesFirst hid hback h, dependenciesFirst_of_revisitsInTime hid hback h⟩

theorem noBackReferences_sharedLines : NoBackReferences sharedLines := by
  intro route schema name hin hpart
  rw [sharedLines, List.mem_singleton] at hin
  injection hin with _ hschema
  rw [hschema] at hpart
  simp only [orderRecord, lineRecord, itemRecord, Schema.isPart_record_iff,
    Schema.isPart_array_iff, List.mem_cons, List.not_mem_nil, or_false, exists_eq_or_imp,
    exists_eq_left, reduceCtorEq, false_or, or_self] at hpart
  cases hpart

/-- The line of an order is listed behind the order's two uses of it, but in front of its item. -/
theorem dependenciesFirst_sharedLines :
    (generateDefinitions sharedLines .reject).toOption.map (fun defs =>
      (defs.keys, decide (DependenciesFirst defs)))
      = some (["Response", "Line", "Item", "Order"], false) := by
  decide +kernel

/-- **Sharing breaks the order**: an object that two fields share and that has a reference of
its own is listed in front of what it refers to. -/
theorem exists_not_dependenciesFirst :
    ¬∀ routes defs, LabelsFaithful routes → NoBackReferences routes →
      generateDefinitions routes .reject = .ok defs → DependenciesFirst defs := by
  intro hall
  have hrun := dependenciesFirst_sharedLines
  cases hdefs : generateDefinitions sharedLines .reject with
  | error e =>
    rw [hdefs] at hrun
    exact absurd hrun (by simp [Except.toOption])
  | ok defs =>
    rw [hdefs] at hrun
    have hfirst := hall sharedLines defs labelsFaithful_sharedLines noBackReferences_sharedLines
      hdefs
    simp [Except.toOption, hfirst] at hrun

/-- The order of shared lines, where a revisit does come too late. -/
theorem sharedLines_dependenciesFirst_iff :
    LabelsFaithful sharedLines ∧ NoBackReferences sharedLines
      ∧ ∃ defs, generateDefinitions sharedLines .reject = .ok defs
        ∧ (DependenciesFirst defs ↔ RevisitsInTime (visits [] (rootRecords sharedLines))) := by
  have hrun := dependenciesFirst_sharedLines
  cases hdefs : generateDefinitions sharedLines .reject with
  | error e =>
    rw [hdefs] at hrun
    exact absurd hrun (by simp [Except.toOption])
  | ok defs =>
    exact ⟨labelsFaithful_sharedLines, noBackReferences_sharedLines, defs, rfl,
      generateDefinitions_dependenciesFirst_iff labelsFaithful_sharedLines
        noBackReferences_sharedLines hdefs⟩

/-- **Dependencies come first where shared objects refer to nothing.** -/
theorem dependenciesFirst_of_shared_leaves (hid : LabelsFaithful routes)
    (hback : NoBackReferences routes) (h : generateDefinitions routes .reject = .ok defs)
    (hleaf : ∀ before r after, visits [] (rootRecords routes) = before ++ r :: after →
      isRevisit before r = true → r.references = []) : DependenciesFirst defs := by
  have hcons : Consistent routes := consistent_of_generateDefinitions hid h
  refine dependenciesFirst_of_revisitsInTime hid hback h ?_
  intro before r after hwalk hrev _ v hv ref href
  have hin : r ∈ visits [] (rootRecords routes) := by
    rw [hwalk]
    simp
  obtain ⟨s, hs, -⟩ := exists_reference_of_mem_refs hcons hback
    ((mem_visits_iff_reachable hid hcons).mp hin) hv href
  rw [hleaf before r after hwalk hrev] at hs
  exact absurd hs (by simp)

end AvroSwagger
