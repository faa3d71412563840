import AvroSwagger.Proofs.OrderedMap
import AvroSwagger.Schema.Outline

/-!
# AvroSwagger.Proofs.Grammar

**The language of schemas: which JSON values spell a schema, and which schema.**

The grammar relates a value to its outline by one rule for each way to write a
schema.  It says nothing of values that spell none, so every outline it gives is
free of faults, and it does not look names up.

Main statement: `Outline.spells_iff_wellFormed`, a value spells its own outline and no
other, and it does so exactly when the outline has no fault and no record with
two fields of one name.
-/

namespace AvroSwagger

open OrderedMap

/-! ## §1. The grammar. -/

/-- The tags that say what kind of schema an object is; any other tag is a name. -/
def kindTags : List String := ["record", "error", "enum", "fixed", "array", "map"]

/-- An object names a definition: its `name` is a string that is not empty, its `namespace` may be
a string. -/
structure Declares (members : OrderedMap Json) (decl : Declaration) : Prop where
  name_eq : Json.stringMember? members "name" = some decl.name
  name_ne : decl.name ≠ ""
  space_eq : Json.stringMember? members "namespace" = decl.space

mutual

/-- **A JSON value spells a schema** with that outline. -/
inductive Spells : Json → Outline → Prop
  | name (name : String) : Spells (.str name) (.reference name)
  | union {branches : List Json} {os : List Outline} (h : SpellsAll branches os) :
      Spells (.arr branches) (.union os)
  | nested {members : List (String × Json)} {v : Json} {o : Outline}
      (htype : find? members "type" = some v) (htag : v.string? = none) (h : Spells v o) :
      Spells (.obj members) o
  | reference {members : List (String × Json)} {tag : String}
      (htype : find? members "type" = some (.str tag)) (htag : tag ∉ kindTags) :
      Spells (.obj members) (.reference tag)
  | array {members : List (String × Json)} {v : Json} {o : Outline}
      (htype : find? members "type" = some (.str "array"))
      (hitems : find? members "items" = some v) (h : Spells v o) :
      Spells (.obj members) (.array o)
  | map {members : List (String × Json)} {v : Json} {o : Outline}
      (htype : find? members "type" = some (.str "map"))
      (hvalues : find? members "values" = some v) (h : Spells v o) :
      Spells (.obj members) (.map o)
  | enum {members : List (String × Json)} {decl : Declaration}
      (htype : find? members "type" = some (.str "enum")) (hdecl : Declares members decl) :
      Spells (.obj members) (.enum decl)
  | fixed {members : List (String × Json)} {decl : Declaration}
      (htype : find? members "type" = some (.str "fixed")) (hdecl : Declares members decl) :
      Spells (.obj members) (.fixed decl)
  | record {members : List (String × Json)} {tag : String} {decl : Declaration}
      {doc : Option String} {items : List Json} {fs : List (Field Outline)}
      (htype : find? members "type" = some (.str tag)) (htag : tag = "record" ∨ tag = "error")
      (hdecl : Declares members decl) (hdoc : Json.stringMember? members "doc" = doc)
      (hfields : find? members "fields" = some (.arr items)) (h : SpellsFields items fs)
      (distinct : (fs.map Field.name).Nodup) :
      Spells (.obj members) (.record decl doc (some (fs.map .typed)))

/-- Each value of a list spells a schema. -/
inductive SpellsAll : List Json → List Outline → Prop
  | nil : SpellsAll [] []
  | cons {v : Json} {o : Outline} {rest : List Json} {os : List Outline} (h : Spells v o)
      (hrest : SpellsAll rest os) : SpellsAll (v :: rest) (o :: os)

/-- Each value of a list is an object with a name and with a type that spells a schema. -/
inductive SpellsFields : List Json → List (Field Outline) → Prop
  | nil : SpellsFields [] []
  | cons {members : List (String × Json)} {name : String} {doc : Option String} {v : Json}
      {o : Outline} {rest : List Json} {fs : List (Field Outline)}
      (hname : Json.stringMember? members "name" = some name)
      (hdoc : Json.stringMember? members "doc" = doc) (htype : find? members "type" = some v)
      (h : Spells v o) (hrest : SpellsFields rest fs) :
      SpellsFields (.obj members :: rest) (⟨name, doc, o⟩ :: fs)

end

theorem Json.eq_str_of_string?_eq_some {v : Json} {s : String} (h : v.string? = some s) :
    v = .str s := by
  cases v with
  | str t => exact congrArg Json.str (Option.some.inj h)
  | _ => exact absurd h (by simp [Json.string?])

namespace Outline

/-- An outline has no fault, and no record in it has two fields of one name. -/
inductive WellFormed : Outline → Prop
  | reference (name : String) : WellFormed (.reference name)
  | union {branches : List Outline} (h : ∀ b ∈ branches, WellFormed b) :
      WellFormed (.union branches)
  | array {items : Outline} (h : WellFormed items) : WellFormed (.array items)
  | map {values : Outline} (h : WellFormed values) : WellFormed (.map values)
  | enum (decl : Declaration) : WellFormed (.enum decl)
  | fixed (decl : Declaration) : WellFormed (.fixed decl)
  | record (decl : Declaration) (doc : Option String) {fs : List (Field Outline)}
      (h : ∀ f ∈ fs, WellFormed f.type) (distinct : (fs.map Field.name).Nodup) :
      WellFormed (.record decl doc (some (fs.map .typed)))

/-! ## §2. The outline of each form. -/

variable {members : List (String × Json)} {v : Json} {o : Outline}

theorem declaration?_eq_some_iff {decl : Declaration} :
    declaration? members = some decl ↔ Declares members decl := by
  unfold declaration?
  obtain ⟨name, space⟩ := decl
  constructor
  · intro h
    split at h
    next written hname =>
      split at h
      next => exact absurd h (by simp)
      next hne =>
        injection h with h
        injection h with hn hs
        subst hn
        exact ⟨hname, by simpa using hne, hs⟩
    next => exact absurd h (by simp)
  · rintro ⟨hname, hne, hspace⟩
    rw [hname, hspace]
    simpa using hne

theorem ofItems_eq_map (items : List Json) : ofItems items = items.map ofJson := by
  induction items with
  | nil => rw [ofItems]; rfl
  | cons v rest ih => rw [ofItems, ih]; rfl

theorem shapesOf_eq_map (items : List Json) : shapesOf items = items.map shapeOf := by
  induction items with
  | nil => rw [shapesOf]; rfl
  | cons v rest ih => rw [shapesOf, ih]; rfl

theorem ofMember?_eq (key : String) (members : List (String × Json)) :
    ofMember? key members = (find? members key).map ofJson := by
  induction members with
  | nil => rw [ofMember?]; rfl
  | cons kv rest ih =>
    obtain ⟨k, v⟩ := kv
    rw [ofMember?, find?_cons, ih]
    by_cases h : k = key
    · simp [h]
    · simp [h]

/-- The fields of an object are there when a list stands under `fields`. -/
theorem fieldsOf?_eq_some_iff {shapes : List (FieldShape Outline)} :
    fieldsOf? members = some shapes ↔
      ∃ items, find? members "fields" = some (.arr items) ∧ shapes = items.map shapeOf := by
  induction members with
  | nil => simp [fieldsOf?]
  | cons kv rest ih =>
    obtain ⟨k, v⟩ := kv
    unfold fieldsOf?
    rw [find?_cons]
    by_cases h : k = "fields"
    · rw [if_pos h, if_pos h]
      cases v with
      | arr items => simp [shapesOf_eq_map, eq_comm]
      | _ => simp
    · rw [if_neg h, if_neg h, ih]

/-- A field that has a name and a type. -/
theorem shapeOf_eq_typed_iff {f : Field Outline} :
    shapeOf v = .typed f ↔
      ∃ members type, v = .obj members ∧ Json.stringMember? members "name" = some f.name
        ∧ find? members "type" = some type
        ∧ Json.stringMember? members "doc" = f.doc ∧ f.type = ofJson type := by
  cases v with
  | obj members =>
    rw [shapeOf, ofMember?_eq]
    obtain ⟨name, doc, type⟩ := f
    cases hname : Json.stringMember? members "name" with
    | none => simp [hname]
    | some written =>
      cases htype : find? members "type" with
      | none => simp [htype]
      | some v => simp [hname, htype, eq_comm]
  | _ => simp [shapeOf]

theorem ofJson_nested (htype : find? members "type" = some v) (htag : v.string? = none) :
    ofJson (.obj members) = ofJson v := by
  rw [ofJson, htype]
  cases v with
  | str tag => exact absurd htag (by simp [Json.string?])
  | _ => simp [ofMember?_eq, htype]

theorem ofJson_reference {tag : String} (htype : find? members "type" = some (.str tag))
    (htag : tag ∉ kindTags) : ofJson (.obj members) = .reference tag := by
  rw [ofJson, htype]
  simp only [kindTags, List.mem_cons, List.not_mem_nil, or_false, not_or] at htag
  simp [htag]

theorem ofJson_array (htype : find? members "type" = some (.str "array")) :
    ofJson (.obj members) = ((find? members "items").map fun v => Outline.array (ofJson v)).getD
      (.malformed .arrayWithoutItems) := by
  rw [ofJson, htype]
  simp only [ofMember?_eq]
  cases find? members "items" <;> rfl

theorem ofJson_map (htype : find? members "type" = some (.str "map")) :
    ofJson (.obj members) = ((find? members "values").map fun v => Outline.map (ofJson v)).getD
      (.malformed .mapWithoutValues) := by
  rw [ofJson, htype]
  simp only [ofMember?_eq]
  cases find? members "values" <;> rfl

theorem ofJson_enum (htype : find? members "type" = some (.str "enum")) :
    ofJson (.obj members)
      = ((declaration? members).map Outline.enum).getD (.malformed .unnamedDefinition) := by
  rw [ofJson, htype]
  simp only
  cases declaration? members <;> rfl

theorem ofJson_fixed (htype : find? members "type" = some (.str "fixed")) :
    ofJson (.obj members)
      = ((declaration? members).map Outline.fixed).getD (.malformed .unnamedDefinition) := by
  rw [ofJson, htype]
  simp only
  cases declaration? members <;> rfl

theorem ofJson_record {tag : String} (htype : find? members "type" = some (.str tag))
    (htag : tag = "record" ∨ tag = "error") :
    ofJson (.obj members) = ((declaration? members).map fun decl =>
      Outline.record decl (Json.stringMember? members "doc") (fieldsOf? members)).getD
        (.malformed .unnamedDefinition) := by
  rw [ofJson, htype]
  rcases htag with rfl | rfl
  · simp only [recordOf]
    cases declaration? members <;> rfl
  · simp only [recordOf]
    cases declaration? members <;> rfl

/-! ## §3. What is spelt is read. -/

theorem sizeOf_lt_of_find? {key : String} (h : find? members key = some v) :
    sizeOf v < sizeOf members := by
  have hpair : sizeOf (key, v) < sizeOf members :=
    List.sizeOf_lt_of_mem (mem_of_find?_eq_some h)
  simp only [Prod.mk.sizeOf_spec] at hpair
  omega

theorem sizeOf_items_lt_of_find? {key : String} {items : List Json}
    (h : find? members key = some (.arr items)) : sizeOf items < sizeOf members := by
  have hlist := sizeOf_lt_of_find? h
  simp only [Json.arr.sizeOf_spec] at hlist
  omega

mutual

/-- A value that spells a schema is read as the outline it spells. -/
theorem ofJson_of_spells : ∀ (v : Json) {o : Outline}, Spells v o → ofJson v = o ∧ o.WellFormed
  | .null, _, h | .bool _, _, h | .num _, _, h => by cases h
  | .str _, _, .name name => ⟨by rw [ofJson], .reference name⟩
  | .arr branches, _, .union h => by
    obtain ⟨heq, hwf⟩ := ofItems_of_spells branches h
    exact ⟨by rw [ofJson, ofItems_eq_map, heq], .union hwf⟩
  | .obj members, o, h => by
    cases h with
    | @nested _ v _ htype htag h =>
      have hsize := sizeOf_lt_of_find? htype
      rw [ofJson_nested htype htag]
      exact ofJson_of_spells v h
    | reference htype htag => exact ⟨ofJson_reference htype htag, .reference _⟩
    | @array _ v _ htype hitems h =>
      have hsize := sizeOf_lt_of_find? hitems
      obtain ⟨heq, hwf⟩ := ofJson_of_spells v h
      exact ⟨by rw [ofJson_array htype, hitems, ← heq]; rfl, .array hwf⟩
    | @map _ v _ htype hvalues h =>
      have hsize := sizeOf_lt_of_find? hvalues
      obtain ⟨heq, hwf⟩ := ofJson_of_spells v h
      exact ⟨by rw [ofJson_map htype, hvalues, ← heq]; rfl, .map hwf⟩
    | enum htype hdecl =>
      rw [ofJson_enum htype, declaration?_eq_some_iff.mpr hdecl]
      exact ⟨rfl, .enum _⟩
    | fixed htype hdecl =>
      rw [ofJson_fixed htype, declaration?_eq_some_iff.mpr hdecl]
      exact ⟨rfl, .fixed _⟩
    | @record _ _ _ _ items _ htype htag hdecl hdoc hfields h distinct =>
      have hsize := sizeOf_items_lt_of_find? hfields
      obtain ⟨heq, hwf⟩ := shapes_of_spells items h
      rw [ofJson_record htype htag, declaration?_eq_some_iff.mpr hdecl,
        fieldsOf?_eq_some_iff.mpr ⟨items, hfields, heq.symm⟩, hdoc]
      exact ⟨rfl, .record _ _ hwf distinct⟩
termination_by v => sizeOf v

/-- Values that spell schemas one by one are read as the outlines they spell. -/
theorem ofItems_of_spells : ∀ (items : List Json) {os : List Outline}, SpellsAll items os →
    items.map ofJson = os ∧ ∀ o ∈ os, o.WellFormed
  | [], _, .nil => ⟨rfl, by simp⟩
  | v :: rest, _, .cons h hrest => by
    obtain ⟨heq, hwf⟩ := ofJson_of_spells v h
    obtain ⟨hrestEq, hrestWf⟩ := ofItems_of_spells rest hrest
    exact ⟨by rw [List.map_cons, heq, hrestEq], List.forall_mem_cons.mpr ⟨hwf, hrestWf⟩⟩
termination_by items => sizeOf items

/-- Values that spell fields are read as fields with names and types. -/
theorem shapes_of_spells : ∀ (items : List Json) {fs : List (Field Outline)},
    SpellsFields items fs → items.map shapeOf = fs.map .typed ∧ ∀ f ∈ fs, f.type.WellFormed
  | _, _, .nil => ⟨rfl, by simp⟩
  | .obj members :: rest, _, .cons (v := v) hname hdoc htype h hrest => by
    have hsize := sizeOf_lt_of_find? htype
    obtain ⟨heq, hwf⟩ := ofJson_of_spells v h
    obtain ⟨hrestEq, hrestWf⟩ := shapes_of_spells rest hrest
    -- a value that spells a field has the name and the type that the reader asks for
    have hshape : shapeOf (.obj members) = .typed ⟨_, _, _⟩ :=
      shapeOf_eq_typed_iff.mpr ⟨members, v, rfl, hname, htype, hdoc, heq.symm⟩
    refine ⟨?_, List.forall_mem_cons.mpr ⟨hwf, hrestWf⟩⟩
    rw [List.map_cons, List.map_cons, hrestEq, hshape]
termination_by items => sizeOf items

end

/-! ## §4. What is read without a fault is spelt. -/

theorem spellsAll_of_forall {items : List Json} (h : ∀ v ∈ items, Spells v (ofJson v)) :
    SpellsAll items (items.map ofJson) := by
  induction items with
  | nil => exact .nil
  | cons v rest ih =>
    obtain ⟨hv, hrest⟩ := List.forall_mem_cons.mp h
    exact .cons hv (ih hrest)

theorem spellsFields_of_shapes {items : List Json} {fs : List (Field Outline)}
    (hshapes : items.map shapeOf = fs.map .typed)
    (h : ∀ members v, .obj members ∈ items → find? members "type" = some v →
      (ofJson v).WellFormed → Spells v (ofJson v))
    (hwf : ∀ f ∈ fs, f.type.WellFormed) : SpellsFields items fs := by
  induction items generalizing fs with
  | nil =>
    obtain rfl : fs = [] := by simpa using hshapes.symm
    exact .nil
  | cons item rest ih =>
    cases fs with
    | nil => exact absurd hshapes (by simp)
    | cons f fs =>
      rw [List.map_cons, List.map_cons] at hshapes
      injection hshapes with hshape hrest
      obtain ⟨hf, hfs⟩ := List.forall_mem_cons.mp hwf
      obtain ⟨members, v, rfl, hname, htype, hdoc, hoType⟩ := shapeOf_eq_typed_iff.mp hshape
      have hv : Spells v f.type :=
        hoType ▸ h members v List.mem_cons_self htype (hoType ▸ hf)
      have hlater := ih hrest (fun ms w hin => h ms w (List.mem_cons_of_mem _ hin)) hfs
      exact .cons hname hdoc htype hv hlater

theorem wellFormed_record_iff {decl : Declaration} {doc : Option String}
    {body : Option (List (FieldShape Outline))} :
    (Outline.record decl doc body).WellFormed ↔
      ∃ fs : List (Field Outline), body = some (fs.map .typed)
        ∧ (∀ f ∈ fs, f.type.WellFormed) ∧ (fs.map Field.name).Nodup := by
  constructor
  · intro h
    cases h with
    | record _ _ h distinct => exact ⟨_, rfl, h, distinct⟩
  · rintro ⟨fs, rfl, h, distinct⟩
    exact .record decl doc h distinct

/-- A part that has to be there is there if the outline has no fault. -/
theorem exists_of_wellFormed {α : Type} {part : Option α} {build : α → Outline}
    {fault : SchemaError} (h : ((part.map build).getD (.malformed fault)).WellFormed) :
    ∃ a, part = some a ∧ (build a).WellFormed := by
  cases part with
  | none => cases h
  | some a => exact ⟨a, rfl, h⟩

/-- A record without faults spells its outline if the values in it do. -/
theorem spells_of_wellFormed_record {tag : String} (htype : find? members "type" = some (.str tag))
    (htag : tag = "record" ∨ tag = "error") (h : (ofJson (.obj members)).WellFormed)
    (hinner : ∀ w, sizeOf w < sizeOf members → (ofJson w).WellFormed → Spells w (ofJson w)) :
    Spells (.obj members) (ofJson (.obj members)) := by
  rw [ofJson_record htype htag] at h ⊢
  obtain ⟨decl, hdecl, h⟩ := exists_of_wellFormed h
  obtain ⟨fs, hbody, hwf, hdistinct⟩ := wellFormed_record_iff.mp h
  obtain ⟨items, hfields, hshapes⟩ := fieldsOf?_eq_some_iff.mp hbody
  have hitems : SpellsFields items fs := by
    apply spellsFields_of_shapes hshapes.symm _ hwf
    intro fieldMembers w hin hw hwf
    -- the type of a field lies four levels below the record
    have hsize : sizeOf w < sizeOf members := by
      have hlist := sizeOf_items_lt_of_find? hfields
      have hitem := List.sizeOf_lt_of_mem hin
      have htypeSize := sizeOf_lt_of_find? hw
      simp only [Json.obj.sizeOf_spec] at hitem
      omega
    exact hinner w hsize hwf
  rw [hdecl, hbody]
  exact .record htype htag (declaration?_eq_some_iff.mp hdecl) rfl hfields hitems hdistinct

/-- A value spells its outline if the outline is well-formed. -/
theorem WellFormed.spells : ∀ (v : Json), (ofJson v).WellFormed → Spells v (ofJson v)
  | .null, h | .bool _, h | .num _, h => by
    rw [ofJson] at h
    · cases h
    all_goals simp
  | .str name, _ => by
    rw [ofJson]
    exact .name name
  | .arr branches, h => by
    rw [ofJson, ofItems_eq_map] at h ⊢
    cases h with
    | union h =>
      refine .union (spellsAll_of_forall fun v hv => ?_)
      exact WellFormed.spells v (h _ (List.mem_map.mpr ⟨v, hv, rfl⟩))
  | .obj members, h => by
    cases htype : find? members "type" with
    | none =>
      rw [ofJson, htype] at h
      cases h
    | some v =>
      have hsize := sizeOf_lt_of_find? htype
      cases htag : v.string? with
      | none =>
        rw [ofJson_nested htype htag] at h ⊢
        exact .nested htype htag (WellFormed.spells v h)
      | some tag =>
        obtain rfl := Json.eq_str_of_string?_eq_some htag
        -- the tags that name a kind of schema come first, what is left is a reference
        by_cases hrecord : tag = "record" ∨ tag = "error"
        · exact spells_of_wellFormed_record htype hrecord h
            fun w hinner hw => WellFormed.spells w hw
        by_cases henum : tag = "enum"
        · subst henum
          rw [ofJson_enum htype] at h ⊢
          obtain ⟨decl, hdecl, -⟩ := exists_of_wellFormed h
          rw [hdecl]
          exact .enum htype (declaration?_eq_some_iff.mp hdecl)
        by_cases hfixed : tag = "fixed"
        · subst hfixed
          rw [ofJson_fixed htype] at h ⊢
          obtain ⟨decl, hdecl, -⟩ := exists_of_wellFormed h
          rw [hdecl]
          exact .fixed htype (declaration?_eq_some_iff.mp hdecl)
        by_cases harray : tag = "array"
        · subst harray
          rw [ofJson_array htype] at h ⊢
          obtain ⟨v, hitems, h⟩ := exists_of_wellFormed h
          have hinner := sizeOf_lt_of_find? hitems
          rw [hitems]
          cases h with
          | array h => exact .array htype hitems (WellFormed.spells v h)
        by_cases hmap : tag = "map"
        · subst hmap
          rw [ofJson_map htype] at h ⊢
          obtain ⟨v, hvalues, h⟩ := exists_of_wellFormed h
          have hinner := sizeOf_lt_of_find? hvalues
          rw [hvalues]
          cases h with
          | map h => exact .map htype hvalues (WellFormed.spells v h)
        have hname : tag ∉ kindTags := by
          rw [not_or] at hrecord
          simp [kindTags, hrecord, henum, hfixed, harray, hmap]
        rw [ofJson_reference htype hname]
        exact .reference htype hname
termination_by v => sizeOf v

/-- **The language of schemas**: a value spells its own outline and no other, and only if the
outline has no fault and no record with two fields of one name. -/
theorem spells_iff_wellFormed : Spells v o ↔ ofJson v = o ∧ o.WellFormed := by
  constructor
  · exact ofJson_of_spells v
  · rintro ⟨rfl, h⟩
    exact WellFormed.spells v h

end Outline

end AvroSwagger
