import AvroSwagger.Proofs.Language

/-!
# AvroSwagger.Proofs.NameResolution

**What a name in a document stands for.**

A name that is no primitive is looked for under its qualified form first.  A
complete definition of that full name is what the name stands for, whatever else
there is.  A record of that full name that is still open does not have this
standing: a complete definition under the name as written hides it, although the
name was meant inside its namespace.  Only where nothing is complete under the
name as written does the name stand for the open record.

Main statements:
  * `Schema.ofJson_references`: the meaning of every reference of a document that is accepted;
  * `Schema.exists_hidden_reference`: an open record can be hidden.
-/

namespace AvroSwagger

/-! ## §1. What is complete and what is open after some events. -/

/-- The events complete a definition of that full name, as that schema. -/
def CompletedIn (events : List Event) (fullName : String) (schema : Schema) : Prop :=
  (fullName, schema) ∈ events.filterMap Event.completion?

/-- A definition of that full name begins in the events and is not complete behind them. -/
def OpenIn (events : List Event) (fullName : String) : Prop :=
  fullName ∈ definedNames (events.filterMap Event.mark?)
    ∧ ∀ schema, ¬CompletedIn events fullName schema

namespace Scope

variable {scope after : Scope} {es : List Event} {firstId : Nat} {name fullName : String}
  {space : Option String} {s t : Schema}

/-- The complete definitions of a scope are those that the events before it complete. -/
theorem Runs.find?_completed_eq_some_iff (h : Runs (start firstId) es scope) :
    scope.completed.find? fullName = some s ↔ CompletedIn es fullName s := by
  have hentries : scope.completed = (es.filterMap Event.completion?).reverse := by
    rw [h.completed_eq]
    exact List.append_nil _
  have hnodup : scope.completed.keys.Nodup := h.nodup_keys List.nodup_nil
  have hmem : (fullName, s) ∈ scope.completed ↔ CompletedIn es fullName s := by
    rw [hentries, List.mem_reverse]
    rfl
  rw [← hmem]
  exact ⟨OrderedMap.mem_of_find?_eq_some, OrderedMap.find?_eq_some_of_mem hnodup⟩

theorem Runs.find?_completed_eq_none_iff (h : Runs (start firstId) es scope) :
    scope.completed.find? fullName = none ↔ ∀ s, ¬CompletedIn es fullName s := by
  rw [Option.eq_none_iff_forall_ne_some]
  exact forall_congr' fun s => not_congr h.find?_completed_eq_some_iff

/-- A definition that began and is not complete is that of a record being read. -/
theorem Runs.mem_openRecords (h : Runs (start firstId) es scope) (hopen : OpenIn es fullName) :
    fullName ∈ scope.openRecords := by
  obtain ⟨hbegun, hnot⟩ := hopen
  have hknown : fullName ∈ scope.knownNames :=
    h.knownNames_perm.symm.subset (List.mem_append_left _ hbegun)
  rcases mem_knownNames_iff.mp hknown with hfound | hin
  · rw [isCompleted, h.find?_completed_eq_none_iff.mpr hnot] at hfound
    exact absurd hfound (by simp)
  · exact hin

/-! ## §2. The order of the lookups. -/

theorem lookup_of_qualified (hprimitive : Schema.primitive? name = none)
    (h : scope.completed.find? (qualify name space) = some s) :
    scope.lookup name space = .ok s := by
  simp [lookup, hprimitive, h]

/-- A complete definition under the name as written hides an open record. -/
theorem lookup_of_written (hprimitive : Schema.primitive? name = none)
    (hqualified : scope.completed.find? (qualify name space) = none)
    (h : scope.completed.find? name = some s) : scope.lookup name space = .ok s := by
  simp [lookup, hprimitive, hqualified, h]

theorem lookup_of_open (hprimitive : Schema.primitive? name = none)
    (hqualified : scope.completed.find? (qualify name space) = none)
    (hwritten : scope.completed.find? name = none)
    (h : qualify name space ∈ scope.openRecords) :
    scope.lookup name space = .ok (.named (qualify name space)) := by
  simp [lookup, hprimitive, hqualified, hwritten, h]

end Scope

/-! ## §3. References. -/

/-- **What a name stands for** behind some events, where its qualified form is defined: the complete
definition of the qualified name; for an open record of that name, the complete definition of the
name as written, and only without one the open record. -/
structure StandsFor (events : List Event) (name : String) (space : Option String) (t : Schema) :
    Prop where
  of_completed : ∀ d, CompletedIn events (qualify name space) d → t = d
  of_hidden : OpenIn events (qualify name space) → ∀ d, CompletedIn events name d → t = d
  of_open : OpenIn events (qualify name space) → (∀ d, ¬CompletedIn events name d) →
    t = .named (qualify name space)

/-- A name that is looked up behind a run stands for what is found. -/
theorem Scope.Runs.standsFor {scope : Scope} {es : List Event} {firstId : Nat} {name : String}
    {space : Option String} {t : Schema} (h : Scope.Runs (.start firstId) es scope)
    (hprimitive : Schema.primitive? name = none) (hlookup : scope.lookup name space = .ok t) :
    StandsFor es name space t where
  of_completed := by
    intro d hd
    have hfound := h.find?_completed_eq_some_iff.mpr hd
    rw [Scope.lookup_of_qualified hprimitive hfound] at hlookup
    exact (Except.ok.inj hlookup).symm
  of_hidden := by
    intro hopen d hd
    have hqualified := h.find?_completed_eq_none_iff.mpr hopen.2
    have hfound := h.find?_completed_eq_some_iff.mpr hd
    rw [Scope.lookup_of_written hprimitive hqualified hfound] at hlookup
    exact (Except.ok.inj hlookup).symm
  of_open := by
    intro hopen hnone
    have hqualified := h.find?_completed_eq_none_iff.mpr hopen.2
    have hwritten := h.find?_completed_eq_none_iff.mpr hnone
    rw [Scope.lookup_of_open hprimitive hqualified hwritten (h.mem_openRecords hopen)] at hlookup
    exact (Except.ok.inj hlookup).symm

namespace Schema

/-- **The meaning of every reference** of a document that is accepted.  The events of the document
miss none of its names and definitions. -/
theorem ofJson_references {firstId next : Nat} {v : Json} {s : Schema}
    (h : ofJson firstId v = .ok (s, next)) :
    ∃ o, Spells v o ∧ (o.log none s).filterMap Event.mark? = o.marks none
      ∧ ∀ before name space t after, o.log none s = before ++ .reference name space t :: after →
        primitive? name = none → StandsFor before name space t := by
  obtain ⟨after, -, hread⟩ := ofJson_eq_ok_iff.mp h
  have hmarks := hread.filterMap_mark?_logAll
  have hrun := hread.runs.1
  simp only [Outline.marksAll, Outline.logAll, List.append_nil] at hmarks hrun
  refine ⟨_, Outline.WellFormed.spells v (hread.wellFormed _ List.mem_cons_self), hmarks, ?_⟩
  intro before name space t back hlog hprimitive
  rw [hlog] at hrun
  -- the run is stopped where the name is looked up
  obtain ⟨mid, next, hbefore, hstep, -⟩ := hrun.exists_step
  cases hstep with
  | reference hlookup => exact hbefore.standsFor hprimitive hlookup

/-- An enumeration and, in a namespace, a record of the same short name that uses the name. -/
def nodeSource : Json :=
  .arr [.obj [("type", .str "enum"), ("name", .str "Node"), ("symbols", .arr [])],
    .obj [("type", .str "record"), ("name", .str "Node"), ("namespace", .str "ns"),
      ("fields", .arr [.obj [("name", .str "next"), ("type", .str "Node")]])]]

/-- The outline of the two definitions. -/
def nodeOutline : Outline :=
  .union [.enum ⟨"Node", none⟩,
    .record ⟨"Node", some "ns"⟩ none (some [.typed ⟨"next", none, .reference "Node"⟩])]

/-- The schema that is read: the field of the record is an enumeration. -/
def nodeSchema : Schema :=
  .union [.enum "Node", .record ⟨0, "ns.Node", none, [⟨"next", none, .enum "Node"⟩]⟩]

theorem spells_nodeSource : Spells nodeSource nodeOutline := by
  have henum : Spells (.obj [("type", .str "enum"), ("name", .str "Node"), ("symbols", .arr [])])
      (.enum ⟨"Node", none⟩) := .enum rfl ⟨rfl, by decide, rfl⟩
  have hfields : SpellsFields [.obj [("name", .str "next"), ("type", .str "Node")]]
      [⟨"next", none, .reference "Node"⟩] := .cons rfl rfl rfl (.name "Node") .nil
  exact .union (.cons henum (.cons
    (.record rfl (.inl rfl) ⟨rfl, by decide, rfl⟩ rfl rfl hfields (by decide)) .nil))

theorem fullNameIn_node :
    (⟨"Node", none⟩ : Declaration).fullNameIn none = "Node"
      ∧ (⟨"Node", some "ns"⟩ : Declaration).fullNameIn none = "ns.Node"
      ∧ (⟨"Node", some "ns"⟩ : Declaration).scopeIn none = some "ns"
      ∧ qualify "Node" (some "ns") = "ns.Node" := by decide

theorem ofJson_nodeSource : ofJson 0 nodeSource = .ok (nodeSchema, 1) := by
  have houtline : Outline.ofJson nodeSource = nodeOutline :=
    (Outline.spells_iff_wellFormed.mp spells_nodeSource).1
  obtain ⟨henum, hrecord, hspace, hqualified⟩ := fullNameIn_node
  rw [ofJson, houtline]
  simp [nodeOutline, nodeSchema, Outline.resolve, Outline.resolveAll, Outline.resolveBody,
    Outline.resolveFields, Outline.resolveField, Scope.start, Scope.lookup, Scope.enter,
    Scope.define, Scope.completeRecord, Scope.isCompleted, henum, hrecord, hspace, hqualified,
    primitive?, OrderedMap.find?, bind, Except.bind]

/-- The references of the two definitions have their meaning. -/
theorem ofJson_references_node :
    ofJson 0 nodeSource = .ok (nodeSchema, 1)
      ∧ ∃ o, Spells nodeSource o ∧ (o.log none nodeSchema).filterMap Event.mark? = o.marks none
        ∧ ∀ before name space t after,
          o.log none nodeSchema = before ++ .reference name space t :: after →
            primitive? name = none → StandsFor before name space t :=
  ⟨ofJson_nodeSource, ofJson_references ofJson_nodeSource⟩

/-- **An open record can be hidden**: a document is accepted in which a name that, qualified, is
the full name of a record being read stands for another definition. -/
theorem exists_hidden_reference :
    ∃ v s next o before name space t after, ofJson 0 v = .ok (s, next) ∧ Spells v o
      ∧ o.log none s = before ++ .reference name space t :: after ∧ primitive? name = none
      ∧ OpenIn before (qualify name space) ∧ t ≠ .named (qualify name space) := by
  obtain ⟨henum, hrecord, hspace, hqualified⟩ := fullNameIn_node
  have hlog : nodeOutline.log none nodeSchema
      = [.defined "Node" (.enum "Node"), .opened "ns.Node"]
        ++ .reference "Node" (some "ns") (.enum "Node")
          :: [.closed "ns.Node" (.record ⟨0, "ns.Node", none, [⟨"next", none, .enum "Node"⟩]⟩)] := by
    simp [nodeOutline, nodeSchema, Outline.log, Outline.logAll, Outline.logBody,
      Outline.logFields, Outline.logField, henum, hrecord, hspace]
  refine ⟨_, _, _, _, _, _, _, _, _, ofJson_nodeSource, spells_nodeSource, hlog, rfl, ?_, ?_⟩
  · rw [hqualified]
    refine ⟨by simp [Event.mark?, definedNames, Mark.definition?], fun schema h => ?_⟩
    simp [CompletedIn, Event.completion?] at h
  · simp

end Schema

end AvroSwagger
