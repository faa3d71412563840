import AvroSwagger.Proofs.NameResolution
import AvroSwagger.Proofs.Reading
import Mathlib.Data.List.Nodup

/-!
# AvroSwagger.Proofs.Identity

**One full name, one object.**

The table of complete definitions is what makes a name mean one thing.  Every named
type that stands anywhere in what was read is in the table, under its own full name
and as it stands there; the table has each full name once and each label once.  A
record inside its own definition is not in the table yet, but there its name is only
left open.

So two occurrences of records with one full name are one object, and occurrences of
one object have one full name.  An enumeration or a fixed type may be defined inside
a record of the same full name, because only complete definitions are in its way;
then the record cannot be completed, and the document is refused.

Main statements:
  * `Scope.Catalogued.add`: what one definition adds to the table;
  * `Outline.Resolved.catalogues`: what was read is in the table;
  * `Schema.ofJson_oneObject`: full names and objects in a document.
-/

namespace AvroSwagger

/-! ## §1. The table of complete definitions. -/

/-- The full name under which a schema is defined, if it is a definition. -/
def Schema.fullName? : Schema → Option String
  | .enum fullName => some fullName
  | .fixed fullName => some fullName
  | .record r => some r.fullName
  | _ => none

/-- Nothing is defined in a primitive. -/
theorem Schema.fullName?_of_primitive? {name : String} {s t : Schema}
    (h : Schema.primitive? name = some s) (hpart : t.IsPart s) : t.fullName? = none := by
  unfold Schema.primitive? at h
  split at h <;> cases h <;> cases hpart <;> rfl

namespace Scope

/-- The records that are complete. -/
def records (scope : Scope) : List Record := scope.completed.filterMap fun kv => kv.2.record?

/-- **Every definition inside a schema is in the table**, under its full name and as it stands
there. -/
def Registers (scope : Scope) (s : Schema) : Prop :=
  ∀ t fullName, t.IsPart s → t.fullName? = some fullName → (fullName, t) ∈ scope.completed

/-- **The table is a catalogue**: each definition is under its own full name, with all that is
defined inside it, and each record has a label of its own. -/
structure Catalogued (scope : Scope) : Prop where
  registers : ∀ kv ∈ scope.completed, scope.Registers kv.2
  named : ∀ kv ∈ scope.completed, kv.2.fullName? = some kv.1
  nodup_ids : (scope.records.map RecordOf.id).Nodup
  /-- The labels that are left are new. -/
  id_lt : ∀ r ∈ scope.records, r.id < scope.nextId

theorem catalogued_start (firstId : Nat) : (start firstId).Catalogued where
  registers := fun kv hkv => absurd hkv (by simp [start])
  named := fun kv hkv => absurd hkv (by simp [start])
  nodup_ids := List.nodup_nil
  id_lt := fun r hr => absurd hr (by simp [records, start])

variable {scope before mid after : Scope} {s t : Schema} {ss : List Schema}

theorem mem_records_iff {r : Record} :
    r ∈ scope.records ↔ ∃ fullName, (fullName, .record r) ∈ scope.completed := by
  rw [records, List.mem_filterMap]
  constructor
  · rintro ⟨⟨fullName, s⟩, hin, hs⟩
    cases s with
    | record x =>
      injection hs with hs
      exact ⟨fullName, hs ▸ hin⟩
    | _ => exact absurd hs (by simp [Schema.record?])
  · rintro ⟨fullName, hin⟩
    exact ⟨_, hin, rfl⟩

/-- A larger table has what a smaller one has. -/
theorem Registers.mono (h : scope.Registers s) (hsub : scope.completed ⊆ after.completed) :
    after.Registers s :=
  fun t fullName hpart hname => hsub (h t fullName hpart hname)

/-- **What one definition adds to the table**: what is defined inside it is there before it, and a
record has the next label. -/
theorem Catalogued.add (hc : scope.Catalogued) {fullName : String}
    (hname : s.fullName? = some fullName)
    (hparts : ∀ t, t.IsPart s → t = s ∨ ∃ u ∈ ss, t.IsPart u)
    (hinner : ∀ u ∈ ss, scope.Registers u)
    (hafter : after.completed = (fullName, s) :: scope.completed)
    (hle : scope.nextId ≤ after.nextId)
    (hid : ∀ r, s.record? = some r → r.id = scope.nextId ∧ scope.nextId < after.nextId) :
    after.Catalogued ∧ after.Registers s := by
  have hsub : scope.completed ⊆ after.completed := by
    rw [hafter]
    exact List.subset_cons_self _ _
  have hregisters : after.Registers s := by
    intro t other hpart hother
    rcases hparts t hpart with rfl | ⟨u, hu, hpart⟩
    · rw [hname] at hother
      injection hother with hother
      rw [hafter, ← hother]
      exact List.mem_cons_self
    · exact hsub (hinner u hu t other hpart hother)
  have hrecords : after.records = s.record?.toList ++ scope.records := by
    rw [records, hafter, List.filterMap_cons]
    cases s.record? <;> rfl
  refine ⟨?_, hregisters⟩
  constructor
  · intro kv hkv
    rw [hafter] at hkv
    rcases List.mem_cons.mp hkv with rfl | hkv
    · exact hregisters
    · exact (hc.registers kv hkv).mono hsub
  · intro kv hkv
    rw [hafter] at hkv
    rcases List.mem_cons.mp hkv with rfl | hkv
    · exact hname
    · exact hc.named kv hkv
  · rw [hrecords]
    cases hr : s.record? with
    | none => exact hc.nodup_ids
    | some r =>
      refine List.nodup_cons.mpr ⟨fun hin => ?_, hc.nodup_ids⟩
      -- the label of a record that was complete before is smaller
      obtain ⟨x, hx, hxid⟩ := List.mem_map.mp hin
      have hlt := hc.id_lt x hx
      have hnext := (hid r hr).1
      omega
  · intro r hr
    rw [hrecords] at hr
    rcases List.mem_append.mp hr with hr | hr
    · obtain ⟨hnext, hlt⟩ := hid r (Option.mem_toList.mp hr)
      omega
    · have hlt := hc.id_lt r hr
      omega

/-! ## §2. What is read. -/

/-- **What reading does to the table**: it keeps its definitions, it is a catalogue again, and it
has the definitions inside the schemas that were read. -/
structure Catalogues (before after : Scope) (ss : List Schema) : Prop where
  kept : before.completed ⊆ after.completed
  catalogued : after.Catalogued
  registers : ∀ s ∈ ss, after.Registers s

/-- Reading one schema after another. -/
theorem Catalogues.cons (h : Catalogues before mid [s]) (h' : Catalogues mid after ss) :
    Catalogues before after (s :: ss) where
  kept := fun _ hkv => h'.kept (h.kept hkv)
  catalogued := h'.catalogued
  registers := by
    intro u hu
    rcases List.mem_cons.mp hu with rfl | hu
    · exact (h.registers u List.mem_cons_self).mono h'.kept
    · exact h'.registers u hu

/-- Reading what a container is made of is reading the container. -/
theorem Catalogues.container (h : Catalogues before after ss) (hname : s.fullName? = none)
    (hparts : ∀ t, t.IsPart s → t = s ∨ ∃ u ∈ ss, t.IsPart u) :
    Catalogues before after [s] where
  kept := h.kept
  catalogued := h.catalogued
  registers := by
    intro u hu t fullName hpart ht
    rw [List.mem_singleton.mp hu] at hpart
    rcases hparts t hpart with rfl | ⟨v, hv, hpart⟩
    · rw [hname] at ht
      exact absurd ht (by simp)
    · exact h.registers v hv t fullName hpart ht

/-- A name that is looked up adds nothing. -/
theorem Catalogued.lookup (hc : scope.Catalogued) {name : String} {space : Option String}
    (h : scope.lookup name space = .ok s) : Catalogues scope scope [s] := by
  refine ⟨List.Subset.refl _, hc, fun u hu => ?_⟩
  rw [List.mem_singleton.mp hu]
  rcases lookup_cases h with hprimitive | ⟨fullName, -, hfound | ⟨-, rfl⟩⟩
  · intro t fullName hpart ht
    rw [Schema.fullName?_of_primitive? hprimitive hpart] at ht
    exact absurd ht (by simp)
  · exact hc.registers _ (OrderedMap.mem_of_find?_eq_some hfound)
  · intro t fullName hpart ht
    cases hpart
    exact absurd ht (by simp [Schema.fullName?])

/-- A definition without parts is added to the table. -/
theorem Catalogued.define (hc : scope.Catalogued) {fullName : String} {schema : Schema}
    (hname : schema.fullName? = some fullName) (hrecord : schema.record? = none)
    (hparts : ∀ t, t.IsPart schema → t = schema)
    (h : scope.define fullName schema = .ok (s, after)) : Catalogues scope after [s] := by
  obtain ⟨-, rfl, hafter⟩ := define_eq_ok_iff.mp h
  have hcompleted : after.completed = (fullName, s) :: scope.completed := by rw [hafter]
  have hnext : after.nextId = scope.nextId := by rw [hafter]
  have hid : ∀ r, s.record? = some r → r.id = scope.nextId ∧ scope.nextId < after.nextId := by
    intro r hr
    rw [hrecord] at hr
    exact absurd hr (by simp)
  obtain ⟨hcatalogued, hregisters⟩ := hc.add hname (fun t ht => Or.inl (hparts t ht))
    (fun u (hu : u ∈ []) => absurd hu List.not_mem_nil) hcompleted
    (Nat.le_of_eq hnext.symm) hid
  refine ⟨hcompleted ▸ List.subset_cons_self _ _, hcatalogued, fun u hu => ?_⟩
  rw [List.mem_singleton.mp hu]
  exact hregisters

/-- A record is added to the table behind its fields. -/
theorem Catalogues.completeRecord {fullName : String} {doc : Option String}
    {fields : List (Field Schema)}
    (hbody : Catalogues (scope.enter fullName) mid (fields.map Field.type))
    (h : mid.completeRecord fullName doc fields = .ok (s, after)) :
    Catalogues scope after [s] := by
  obtain ⟨-, hs, hafter⟩ := completeRecord_eq_ok_iff.mp h
  have hcompleted : after.completed = (fullName, s) :: mid.completed := by rw [hafter]
  have hnext : mid.nextId < after.nextId := by
    rw [hafter]
    exact Nat.lt_succ_self _
  have hparts : ∀ t, t.IsPart s → t = s ∨ ∃ u ∈ fields.map Field.type, t.IsPart u := by
    intro t hpart
    rw [hs] at hpart ⊢
    refine (Schema.isPart_record_iff.mp hpart).imp id fun ⟨f, hf, ht⟩ => ?_
    exact ⟨f.type, List.mem_map_of_mem hf, ht⟩
  have hid : ∀ r, s.record? = some r → r.id = mid.nextId ∧ mid.nextId < after.nextId := by
    intro r hr
    rw [hs] at hr
    injection hr with hr
    exact ⟨hr ▸ rfl, hnext⟩
  obtain ⟨hcatalogued, hregisters⟩ := hbody.catalogued.add (hs ▸ rfl) hparts hbody.registers
    hcompleted (Nat.le_of_lt hnext) hid
  refine ⟨fun kv hkv => ?_, hcatalogued, fun u hu => ?_⟩
  · rw [hcompleted]
    exact List.mem_cons_of_mem _ (hbody.kept hkv)
  · rw [List.mem_singleton.mp hu]
    exact hregisters

end Scope

namespace Outline

open Scope

/-- **What was read is in the table.** -/
theorem Resolved.catalogues {space : Option String} {scope after : Scope} {os : List Outline}
    {ss : List Schema} (h : Resolved space scope os ss after) (hc : scope.Catalogued) :
    Catalogues scope after ss := by
  -- the table behind each outline is in order again, so the next one can be read with it
  induction h with
  | nil => exact ⟨List.Subset.refl _, hc, fun s hs => absurd hs (by simp)⟩
  | reference hl _ ih =>
    have hfirst := hc.lookup hl
    exact hfirst.cons (ih hfirst.catalogued)
  | union _ _ ihb ih =>
    have hfirst := (ihb hc).container (s := .union _) rfl fun t hpart => by
      cases hpart with
      | self => exact Or.inl rfl
      | branch hb ht => exact Or.inr ⟨_, hb, ht⟩
    exact hfirst.cons (ih hfirst.catalogued)
  | array _ _ ihi ih =>
    have hfirst := (ihi hc).container (s := .array _) rfl fun t hpart => by
      cases hpart with
      | self => exact Or.inl rfl
      | items ht => exact Or.inr ⟨_, List.mem_singleton_self _, ht⟩
    exact hfirst.cons (ih hfirst.catalogued)
  | map _ _ ihv ih =>
    have hfirst := (ihv hc).container (s := .map _) rfl fun t hpart => by
      cases hpart with
      | self => exact Or.inl rfl
      | values ht => exact Or.inr ⟨_, List.mem_singleton_self _, ht⟩
    exact hfirst.cons (ih hfirst.catalogued)
  | enum hd _ ih =>
    have hfirst := hc.define rfl rfl (fun t hpart => by cases hpart; rfl) hd
    exact hfirst.cons (ih hfirst.catalogued)
  | fixed hd _ ih =>
    have hfirst := hc.define rfl rfl (fun t hpart => by cases hpart; rfl) hd
    exact hfirst.cons (ih hfirst.catalogued)
  | @record space scope mid last after decl doc fs fields s os ss _ _ _ _ hr _ ihb ih =>
    -- the table does not change when a record is entered
    have hentered : (scope.enter (decl.fullNameIn space)).Catalogued :=
      ⟨hc.registers, hc.named, hc.nodup_ids, hc.id_lt⟩
    have hfirst := (ihb hentered).completeRecord hr
    exact hfirst.cons (ih hfirst.catalogued)

end Outline

/-! ## §3. Full names and objects. -/

namespace Scope

variable {scope : Scope} {s t : Schema} {fullName : String}

/-- Two definitions of one full name in the table are one. -/
theorem eq_of_mem_completed (hkeys : scope.completed.keys.Nodup)
    (hs : (fullName, s) ∈ scope.completed) (ht : (fullName, t) ∈ scope.completed) : s = t := by
  have hfound := OrderedMap.find?_eq_some_of_mem hkeys hs
  rw [OrderedMap.find?_eq_some_of_mem hkeys ht] at hfound
  exact (Option.some.inj hfound).symm

/-- **Records in the table have one full name exactly when they are one object**, and then they are
equal. -/
theorem Catalogued.fullName_eq_iff (hc : scope.Catalogued) (hkeys : scope.completed.keys.Nodup)
    {a b : Record} (ha : (a.fullName, .record a) ∈ scope.completed)
    (hb : (b.fullName, .record b) ∈ scope.completed) :
    (a.fullName = b.fullName ↔ a.isSameObject b = true) ∧ (a.isSameObject b = true → a = b) := by
  have heq : a.isSameObject b = true → a = b := fun hsame =>
    List.inj_on_of_nodup_map hc.nodup_ids (mem_records_iff.mpr ⟨_, ha⟩)
      (mem_records_iff.mpr ⟨_, hb⟩) (beq_iff_eq.mp hsame)
  refine ⟨⟨fun hname => ?_, fun hsame => congrArg RecordOf.fullName (heq hsame)⟩, heq⟩
  have hrecord := eq_of_mem_completed hkeys ha (hname ▸ hb)
  injection hrecord with hrecord
  exact beq_iff_eq.mpr (congrArg RecordOf.id hrecord)

/-- **A name that gives a record gives the definition of its full name**, which is complete
there. -/
theorem Runs.completedIn_of_lookup {firstId : Nat} {es : List Event} {name : String}
    {space : Option String} {r : Record} (h : Runs (start firstId) es scope)
    (hnamed : ∀ kv ∈ scope.completed, kv.2.fullName? = some kv.1)
    (hlookup : scope.lookup name space = .ok (.record r)) :
    ∀ d, CompletedIn es r.fullName d ↔ d = .record r := by
  have hfound : scope.completed.find? r.fullName = some (.record r) := by
    rcases lookup_cases hlookup with hprimitive | ⟨other, -, hfound | ⟨-, hopen⟩⟩
    · have hname := Schema.fullName?_of_primitive? hprimitive (.self _)
      exact absurd hname (by simp [Schema.fullName?])
    · -- whichever form of the name was found, it is the full name of the record
      have hname := hnamed _ (OrderedMap.mem_of_find?_eq_some hfound)
      exact (Option.some.inj hname : r.fullName = other) ▸ hfound
    · cases hopen
  intro d
  rw [← h.find?_completed_eq_some_iff, hfound, Option.some_inj, eq_comm]

end Scope

namespace Schema

/-- **A document that is accepted is read in a run of its events**, which miss none of its names and
definitions. -/
theorem exists_run_of_ofJson {firstId next : Nat} {v : Json} {s : Schema}
    (h : ofJson firstId v = .ok (s, next)) :
    ∃ after, Outline.Resolved none (.start firstId) [Outline.ofJson v] [s] after
      ∧ Spells v (Outline.ofJson v)
      ∧ ((Outline.ofJson v).log none s).filterMap Event.mark? = (Outline.ofJson v).marks none
      ∧ Scope.Runs (.start firstId) ((Outline.ofJson v).log none s) after := by
  obtain ⟨after, -, hread⟩ := ofJson_eq_ok_iff.mp h
  have hspells := Outline.WellFormed.spells v (hread.wellFormed _ List.mem_cons_self)
  have hmarks := hread.filterMap_mark?_logAll
  have hrun := hread.runs.1
  simp only [Outline.marksAll, Outline.logAll, List.append_nil] at hmarks hrun
  exact ⟨after, hread, hspells, hmarks, hrun⟩

/-- **One full name, one object** in every document that is accepted: two records in it have the
same full name when they are the same object, and only then; no enumeration and no fixed type has
the full name of a record or of an open name; and a name that is used for a record gives the one
definition of its full name, which is complete before the use. -/
theorem ofJson_oneObject {firstId next : Nat} {v : Json} {s : Schema}
    (h : ofJson firstId v = .ok (s, next)) :
    (∀ a b : Record, (record a).IsPart s → (record b).IsPart s →
        (a.fullName = b.fullName ↔ a.isSameObject b = true)
          ∧ (a.isSameObject b = true → a = b))
      ∧ (∀ fullName, (enum fullName).IsPart s ∨ (fixed fullName).IsPart s →
          (∀ r : Record, (record r).IsPart s → r.fullName ≠ fullName)
            ∧ ¬(named fullName).IsPart s)
      ∧ ∃ o, Spells v o ∧ (o.log none s).filterMap Event.mark? = o.marks none
        ∧ ∀ before name space r after,
          o.log none s = before ++ .reference name space (.record r) :: after →
            ∀ d, CompletedIn before r.fullName d ↔ d = .record r := by
  obtain ⟨after, hread, hspells, hmarks, hrun⟩ := exists_run_of_ofJson h
  obtain ⟨-, hcatalogued, hregisters⟩ := hread.catalogues (Scope.catalogued_start firstId)
  have hkeys : after.completed.keys.Nodup := hrun.nodup_keys List.nodup_nil
  have hin : ∀ r : Record, (record r).IsPart s → (r.fullName, record r) ∈ after.completed :=
    fun r hr => hregisters s List.mem_cons_self _ _ hr rfl
  have hother : ∀ fullName, (enum fullName).IsPart s ∨ (fixed fullName).IsPart s →
      ∀ r : Record, (record r).IsPart s → r.fullName ≠ fullName := by
    -- both would be in the table under one full name
    rintro fullName (ht | ht) r hr rfl <;>
      cases Scope.eq_of_mem_completed hkeys (hin r hr)
        (hregisters s List.mem_cons_self _ _ ht rfl)
  refine ⟨fun a b ha hb => hcatalogued.fullName_eq_iff hkeys (hin a ha) (hin b hb),
    fun fullName ht => ⟨hother fullName ht, ?_⟩, ?_⟩
  · intro hopen
    obtain ⟨r, hr, hname⟩ := exists_record_of_named_isPart h hopen
    exact hother fullName ht r hr hname
  · refine ⟨_, hspells, hmarks, ?_⟩
    intro before name space r back hlog
    rw [hlog] at hrun
    -- the run is stopped where the name is looked up; the table there is part of the last one
    obtain ⟨mid, next, hbefore, hstep, hback⟩ := hrun.exists_step
    cases hstep with
    | reference hlookup =>
      refine hbefore.completedIn_of_lookup (fun kv hkv => hcatalogued.named kv ?_) hlookup
      rw [hback.completed_eq]
      exact List.mem_append_right _ hkv

/-- An enumeration, a record in a namespace with an enumeration of the same short name inside and
a use of itself, and the record once more by its full name. -/
def itemSource : Json :=
  .arr [.obj [("type", .str "enum"), ("name", .str "Kind"), ("symbols", .arr [])],
    .obj [("type", .str "record"), ("name", .str "ns.Item"),
      ("fields", .arr [
        .obj [("name", .str "kind"),
          ("type", .obj [("type", .str "enum"), ("name", .str "Kind"), ("symbols", .arr [])])],
        .obj [("name", .str "next"), ("type", .str "Item")]])],
    .str "ns.Item"]

/-- The outline of the item. -/
def itemOutline : Outline :=
  .union [.enum ⟨"Kind", none⟩,
    .record ⟨"ns.Item", none⟩ none
      (some [.typed ⟨"kind", none, .enum ⟨"Kind", none⟩⟩,
        .typed ⟨"next", none, .reference "Item"⟩]),
    .reference "ns.Item"]

/-- The item that is read. -/
def linkedItemRecord : Record :=
  ⟨0, "ns.Item", none, [⟨"kind", none, .enum "ns.Kind"⟩, ⟨"next", none, .named "ns.Item"⟩]⟩

/-- The schema that is read: the item stands in it twice. -/
def itemSchema : Schema := .union [.enum "Kind", .record linkedItemRecord, .record linkedItemRecord]

theorem spells_itemSource : Spells itemSource itemOutline := by
  have hkind : Spells (.obj [("type", .str "enum"), ("name", .str "Kind"), ("symbols", .arr [])])
      (.enum ⟨"Kind", none⟩) := .enum rfl ⟨rfl, by decide, rfl⟩
  have hfields : SpellsFields
      [.obj [("name", .str "kind"),
          ("type", .obj [("type", .str "enum"), ("name", .str "Kind"), ("symbols", .arr [])])],
        .obj [("name", .str "next"), ("type", .str "Item")]]
      [⟨"kind", none, .enum ⟨"Kind", none⟩⟩, ⟨"next", none, .reference "Item"⟩] :=
    .cons rfl rfl rfl hkind (.cons rfl rfl rfl (.name "Item") .nil)
  exact .union (.cons hkind (.cons
    (.record rfl (.inl rfl) ⟨rfl, by decide, rfl⟩ rfl rfl hfields (by decide))
    (.cons (.name "ns.Item") .nil)))

theorem ofJson_itemSource : ofJson 0 itemSource = .ok (itemSchema, 1) := by
  have houtline : Outline.ofJson itemSource = itemOutline :=
    (Outline.spells_iff_wellFormed.mp spells_itemSource).1
  have hnames : (⟨"Kind", none⟩ : Declaration).fullNameIn none = "Kind"
      ∧ (⟨"Kind", none⟩ : Declaration).fullNameIn (some "ns") = "ns.Kind"
      ∧ (⟨"ns.Item", none⟩ : Declaration).fullNameIn none = "ns.Item"
      ∧ (⟨"ns.Item", none⟩ : Declaration).scopeIn none = some "ns"
      ∧ qualify "Item" (some "ns") = "ns.Item" ∧ qualify "ns.Item" none = "ns.Item" := by decide
  obtain ⟨hkind, hinner, hitem, hspace, hqualified, hwritten⟩ := hnames
  rw [ofJson, houtline]
  simp [itemOutline, itemSchema, linkedItemRecord, Outline.resolve, Outline.resolveAll,
    Outline.resolveBody, Outline.resolveFields, Outline.resolveField, Scope.start, Scope.lookup,
    Scope.enter, Scope.define, Scope.completeRecord, Scope.isCompleted, hkind, hinner, hitem,
    hspace, hqualified, hwritten, primitive?, OrderedMap.find?, bind, Except.bind]

/-- The names of the document mean one thing each. -/
theorem ofJson_oneObject_item :
    ofJson 0 itemSource = .ok (itemSchema, 1)
      ∧ (∀ a b : Record, (record a).IsPart itemSchema → (record b).IsPart itemSchema →
          (a.fullName = b.fullName ↔ a.isSameObject b = true)
            ∧ (a.isSameObject b = true → a = b))
      ∧ (∀ fullName, (enum fullName).IsPart itemSchema ∨ (fixed fullName).IsPart itemSchema →
          (∀ r : Record, (record r).IsPart itemSchema → r.fullName ≠ fullName)
            ∧ ¬(named fullName).IsPart itemSchema)
      ∧ ∃ o, Spells itemSource o
        ∧ (o.log none itemSchema).filterMap Event.mark? = o.marks none
        ∧ ∀ before name space r after,
          o.log none itemSchema = before ++ .reference name space (.record r) :: after →
            ∀ d, CompletedIn before r.fullName d ↔ d = .record r :=
  ⟨ofJson_itemSource, ofJson_oneObject ofJson_itemSource⟩

end Schema

end AvroSwagger
