import AvroSwagger.Proofs.Identity

/-!
# AvroSwagger.Proofs.Namespaces

**The full name of a definition, wherever in a document it stands.**

A dotted name is a full name.  Any other name is put behind the definition's own
namespace or, where it states none, behind the namespace of the record around it,
which is the part of that record's full name before the last dot.

The reader hands a namespace down instead, which each record sets anew for its
fields.  The two agree because the namespace that a record hands down is always the
part of its full name before the last dot.

A place in a document is named by the turns on the way to it, and the same turns lead
to what was read there.

Main statements:
  * `spaceBefore?_eq_some_iff`, `Declaration.spaceBefore?_fullNameIn`: full names and namespaces;
  * `Outline.Resolved.readAt?`: what was read at a place of a document;
  * `Schema.ofJson_fullNames`: the full name of every definition.
-/

namespace AvroSwagger

/-! ## §1. The part before the last dot. -/

/-- The part of a full name before its last dot; none without a dot. -/
def spaceBefore? (fullName : String) : Option String :=
  if isDotted fullName then some (namespaceOf fullName) else none

theorem isDotted_iff {name : String} : isDotted name = true ↔ '.' ∈ name.toList := by
  rw [isDotted, List.contains_iff_mem]

/-- A text in front of a dot and a name without dots. -/
theorem toList_append_dot (space last : String) :
    (space ++ "." ++ last).toList = space.toList ++ '.' :: last.toList := by
  rw [String.toList_append, String.toList_append, List.append_assoc]
  rfl

theorem isDotted_append_dot (space last : String) : isDotted (space ++ "." ++ last) = true := by
  rw [isDotted_iff, toList_append_dot]
  exact List.mem_append_right _ List.mem_cons_self

/-- What stands before the last dot. -/
theorem namespaceOf_append_dot {last : String} (h : isDotted last = false) (space : String) :
    namespaceOf (space ++ "." ++ last) = space := by
  have hlast : ∀ c ∈ last.toList.reverse, decide (c ≠ '.') = true := by
    intro c hc
    rw [decide_eq_true_eq]
    intro heq
    have hdot : isDotted last = true := isDotted_iff.mpr (heq ▸ List.mem_reverse.mp hc)
    rw [h] at hdot
    exact absurd hdot (by simp)
  unfold namespaceOf
  rw [toList_append_dot, List.reverse_append, List.reverse_cons, List.append_assoc,
    List.dropWhile_append_of_pos hlast]
  simp

/-- A dotted name has a last dot. -/
theorem exists_append_dot {name : String} (h : isDotted name = true) :
    ∃ space last, isDotted last = false ∧ name = space ++ "." ++ last := by
  have hin : '.' ∈ name.toList.reverse := List.mem_reverse.mpr (isDotted_iff.mp h)
  -- read backwards, the last dot is the first one
  obtain ⟨back, front, hsplit, hback⟩ := List.eq_append_cons_of_mem hin
  refine ⟨String.ofList front.reverse, String.ofList back.reverse, ?_, ?_⟩
  · rw [← Bool.not_eq_true, isDotted_iff, String.toList_ofList, List.mem_reverse]
    exact hback
  · apply String.toList_inj.mp
    rw [toList_append_dot, String.toList_ofList, String.toList_ofList,
      ← List.reverse_reverse name.toList, hsplit]
    simp

/-- **The part before the last dot**, told by putting the name together. -/
theorem spaceBefore?_eq_some_iff {fullName space : String} :
    spaceBefore? fullName = some space ↔
      ∃ last, isDotted last = false ∧ fullName = space ++ "." ++ last := by
  unfold spaceBefore?
  constructor
  · intro h
    split at h
    next hdotted =>
      obtain ⟨front, last, hlast, hname⟩ := exists_append_dot hdotted
      rw [hname, namespaceOf_append_dot hlast] at h
      injection h with h
      exact ⟨last, hlast, h ▸ hname⟩
    next => exact absurd h (by simp)
  · intro h
    obtain ⟨last, hlast, hname⟩ := h
    rw [hname, if_pos (isDotted_append_dot space last), namespaceOf_append_dot hlast]

theorem spaceBefore?_eq_none_iff {fullName : String} :
    spaceBefore? fullName = none ↔ isDotted fullName = false := by
  unfold spaceBefore?
  split
  next h => simp [h]
  next h => simpa using h

/-- **The namespace that a record hands down** is the part of its full name before the last
dot. -/
theorem Declaration.spaceBefore?_fullNameIn (d : Declaration) (inherited : Option String) :
    spaceBefore? (d.fullNameIn inherited) = d.scopeIn inherited := by
  unfold Declaration.fullNameIn
  by_cases hdotted : isDotted d.name = true
  · rw [if_pos hdotted, Declaration.scopeIn, if_pos hdotted, spaceBefore?, if_pos hdotted]
  · have hname : isDotted d.name = false := by simpa using hdotted
    rw [if_neg hdotted]
    -- what is handed down is not empty, so it stands in front of the name
    cases hspace : d.scopeIn inherited with
    | none => exact spaceBefore?_eq_none_iff.mpr hname
    | some space =>
      have hne : space.isEmpty = false := by
        rw [Declaration.scopeIn, if_neg hdotted, Option.filter_eq_some_iff] at hspace
        simpa using hspace.2
      refine spaceBefore?_eq_some_iff.mpr ⟨d.name, hname, ?_⟩
      simp [qualify, hne, hname]

/-! ## §2. Places of a document. -/

/-- A turn on the way from a schema in a document to one directly inside it. -/
inductive Turn where
  /-- Into the type of an object that says nothing but its type. -/
  | nested
  | branch (i : Nat)
  | items
  | values
  /-- Into the type of a field. -/
  | field (i : Nat)

namespace Json

/-- The tag of an object, if its type is a string. -/
def tag? (v : Json) : Option String := (v.member? "type").bind string?

/-- The value under a key of an object with that tag. -/
def underTag? (v : Json) (tag key : String) : Option Json :=
  if v.tag? = some tag then v.member? key else none

/-- The schema directly inside a schema of a document. -/
def inner? (v : Json) : Turn → Option Json
  | .nested => if v.tag?.isNone then v.member? "type" else none
  | .branch i =>
    match v with
    | .arr branches => branches[i]?
    | _ => none
  | .items => v.underTag? "array" "items"
  | .values => v.underTag? "map" "values"
  | .field i =>
    match (v.underTag? "record" "fields").or (v.underTag? "error" "fields") with
    | some (.arr fields) => (fields[i]?).bind fun f => f.member? "type"
    | _ => none

/-- **The schema at a place** of a document. -/
def schemaAt? (v : Json) : List Turn → Option Json
  | [] => some v
  | turn :: rest => (v.inner? turn).bind fun w => w.schemaAt? rest

variable {v w : Json}

theorem tag?_eq_some_iff {tag : String} :
    v.tag? = some tag ↔
      ∃ members, v = .obj members ∧ OrderedMap.find? members "type" = some (.str tag) := by
  unfold tag?
  rw [Option.bind_eq_some_iff]
  constructor
  · intro h
    obtain ⟨type, htype, htag⟩ := h
    rw [eq_str_of_string?_eq_some htag] at htype
    cases v with
    | obj members => exact ⟨members, rfl, htype⟩
    | _ => exact absurd htype (by simp [member?])
  · intro h
    obtain ⟨members, rfl, htype⟩ := h
    exact ⟨.str tag, htype, rfl⟩

/-- What is under a key of an object with a tag. -/
theorem underTag?_eq_some {tag key : String} (h : v.underTag? tag key = some w) :
    ∃ members, v = .obj members ∧ OrderedMap.find? members "type" = some (.str tag)
      ∧ OrderedMap.find? members key = some w := by
  unfold underTag? at h
  split at h
  next htag =>
    obtain ⟨members, rfl, htype⟩ := tag?_eq_some_iff.mp htag
    exact ⟨members, rfl, htype, h⟩
  next => exact absurd h (by simp)

/-- Inside an object that says nothing but its type stands this type. -/
theorem inner?_nested_eq_some (h : v.inner? .nested = some w) :
    ∃ members, v = .obj members ∧ OrderedMap.find? members "type" = some w
      ∧ w.string? = none := by
  simp only [inner?] at h
  split at h
  next htag =>
    cases v with
    | obj members =>
      refine ⟨members, rfl, h, ?_⟩
      unfold tag? at htag
      rw [h] at htag
      simpa using htag
    | _ => exact absurd h (by simp [member?])
  next => exact absurd h (by simp)

/-- Inside a record stand the types of its fields. -/
theorem inner?_field_eq_some {i : Nat} (h : v.inner? (.field i) = some w) :
    ∃ members tag types field, v = .obj members
      ∧ OrderedMap.find? members "type" = some (.str tag) ∧ (tag = "record" ∨ tag = "error")
      ∧ OrderedMap.find? members "fields" = some (.arr types) ∧ types[i]? = some field
      ∧ field.member? "type" = some w := by
  simp only [inner?] at h
  split at h
  next types htypes =>
    obtain ⟨field, hfield, htypeOf⟩ := Option.bind_eq_some_iff.mp h
    rcases Option.or_eq_some_iff.mp htypes with hunder | ⟨-, hunder⟩
    · obtain ⟨members, rfl, htype, hfields⟩ := underTag?_eq_some hunder
      exact ⟨members, _, types, field, rfl, htype, .inl rfl, hfields, hfield, htypeOf⟩
    · obtain ⟨members, rfl, htype, hfields⟩ := underTag?_eq_some hunder
      exact ⟨members, _, types, field, rfl, htype, .inr rfl, hfields, hfield, htypeOf⟩
  next => exact absurd h (by simp)

end Json

namespace Schema

/-- What was read directly inside what was read.  An object that says nothing but its type is read
as this type. -/
def inner? (s : Schema) : Turn → Option Schema
  | .nested => some s
  | .branch i =>
    match s with
    | .union branches => branches[i]?
    | _ => none
  | .items =>
    match s with
    | .array items => some items
    | _ => none
  | .values =>
    match s with
    | .map values => some values
    | _ => none
  | .field i =>
    match s with
    | .record r => (r.fields[i]?).map Field.type
    | _ => none

/-- The record that is nearest around what a turn leads to. -/
def aroundInner (s : Schema) (around : Option Record) : Turn → Option Record
  | .field _ => s.record?
  | _ => around

/-- **What was read at a place**, and the record nearest around it. -/
def readAt? (s : Schema) (around : Option Record) : List Turn → Option (Option Record × Schema)
  | [] => some (around, s)
  | turn :: rest => (s.inner? turn).bind fun t => t.readAt? (s.aroundInner around turn) rest

end Schema

/-! ## §3. What was read at a place. -/

/-- The namespace that a record hands down to what stands in it. -/
def handedDown (around : Option Record) : Option String :=
  around.bind fun r => spaceBefore? r.fullName

namespace Outline

variable {space : Option String} {scope after : Scope}

/-- The first outline of a list is read, and then the others. -/
theorem Resolved.exists_cons {o : Outline} {os : List Outline} {ss : List Schema}
    (h : Resolved space scope (o :: os) ss after) :
    ∃ s mid ts, Resolved space scope [o] [s] mid ∧ Resolved space mid os ts after
      ∧ ss = s :: ts := by
  obtain ⟨s, mid, ts, ho, hos, hss⟩ := resolveAll_cons_eq_ok_iff.mp (resolveAll_eq_ok_iff.mpr h)
  exact ⟨s, mid, ts, resolve_eq_ok_iff.mp ho, resolveAll_eq_ok_iff.mp hos, hss⟩

/-- Every outline of a list that is read is read. -/
theorem Resolved.exists_getElem? {os : List Outline} {ss : List Schema}
    (h : Resolved space scope os ss after) {i : Nat} {o : Outline} (ho : os[i]? = some o) :
    ∃ s before behind, ss[i]? = some s ∧ Resolved space before [o] [s] behind := by
  induction os generalizing scope ss i with
  | nil => exact absurd ho (by simp)
  | cons first rest ih =>
    obtain ⟨s, mid, ts, hfirst, hrest, rfl⟩ := h.exists_cons
    cases i with
    | zero =>
      injection ho with ho
      exact ⟨s, scope, mid, rfl, ho ▸ hfirst⟩
    | succ i => exact ih hrest ho

/-- A record that is read has fields of the names and types that its outline has. -/
theorem Resolved.exists_record {decl : Declaration} {doc : Option String}
    {body : Option (List (FieldShape Outline))} {s : Schema}
    (h : Resolved space scope [.record decl doc body] [s] after) :
    ∃ (r : Record) (fs : List (Field Outline)) (before behind : Scope),
      s = .record r ∧ r.fullName = decl.fullNameIn space
      ∧ body = some (fs.map .typed)
      ∧ Resolved (decl.scopeIn space) before (fs.map Field.type) (r.fields.map Field.type)
        behind := by
  cases h with
  | record fresh distinct heads hbody hr rest =>
    obtain ⟨-, rfl, -⟩ := Scope.completeRecord_eq_ok_iff.mp hr
    exact ⟨_, _, _, _, rfl, rfl, rfl, hbody⟩

/-- What is read has no fault. -/
theorem Resolved.exists_of_getD {α : Type} {part : Option α} {build : α → Outline}
    {fault : SchemaError} {s : Schema}
    (h : Resolved space scope [(part.map build).getD (.malformed fault)] [s] after) :
    ∃ a, part = some a ∧ Resolved space scope [build a] [s] after := by
  cases part with
  | none => cases h
  | some a => exact ⟨a, rfl, h⟩

/-- The type of a field, read from the list of all fields. -/
theorem getElem?_type_of_shapes {items : List Json} {fs : List (Field Outline)}
    (hshapes : items.map shapeOf = fs.map .typed) {i : Nat} {field type : Json}
    (hfield : items[i]? = some field) (htype : field.member? "type" = some type) :
    (fs.map Field.type)[i]? = some (ofJson type) := by
  have hshape : (fs.map FieldShape.typed)[i]? = some (shapeOf field) := by
    rw [← hshapes, List.getElem?_map, hfield]
    rfl
  rw [List.getElem?_map, Option.map_eq_some_iff] at hshape
  obtain ⟨f, hf, hshape⟩ := hshape
  obtain ⟨members, written, rfl, -, hwritten, -, hread⟩ := shapeOf_eq_typed_iff.mp hshape.symm
  rw [List.getElem?_map, hf]
  -- the type that is read is the one that stands in the object
  have heq : written = type := Option.some.inj (hwritten.symm.trans htype)
  exact congrArg some (hread.trans (congrArg ofJson heq))

/-- **One turn**: what stands directly inside a schema of a document was read directly inside what
was read, with the namespace of the record that is nearest around it. -/
theorem Resolved.inner? {around : Option Record} {v w : Json} {s : Schema} {turn : Turn}
    (h : Resolved (handedDown around) scope [ofJson v] [s] after) (hw : v.inner? turn = some w) :
    ∃ t before behind, s.inner? turn = some t
      ∧ Resolved (handedDown (s.aroundInner around turn)) before [ofJson w] [t] behind := by
  cases turn with
  | nested =>
    obtain ⟨members, rfl, htype, hnot⟩ := Json.inner?_nested_eq_some hw
    rw [ofJson_nested htype hnot] at h
    exact ⟨s, scope, after, rfl, h⟩
  | branch i =>
    simp only [Json.inner?] at hw
    split at hw
    next branches =>
      rw [ofJson, ofItems_eq_map] at h
      have hi : (branches.map ofJson)[i]? = some (ofJson w) := by
        rw [List.getElem?_map, hw]
        rfl
      cases h with
      | union hbranches rest =>
        cases rest
        exact hbranches.exists_getElem? hi
    next => exact absurd hw (by simp)
  | items =>
    obtain ⟨members, rfl, htype, hitems⟩ := Json.underTag?_eq_some hw
    rw [ofJson_array htype, hitems] at h
    cases h with
    | array h rest =>
      cases rest
      exact ⟨_, _, _, rfl, h⟩
  | values =>
    obtain ⟨members, rfl, htype, hvalues⟩ := Json.underTag?_eq_some hw
    rw [ofJson_map htype, hvalues] at h
    cases h with
    | map h rest =>
      cases rest
      exact ⟨_, _, _, rfl, h⟩
  | field i =>
    obtain ⟨members, tag, items, field, rfl, htype, hkind, hitems, hfield, hin⟩ :=
      Json.inner?_field_eq_some hw
    rw [ofJson_record htype hkind] at h
    obtain ⟨decl, -, h⟩ := h.exists_of_getD
    obtain ⟨r, fs, before, behind, rfl, hname, hbody, hfields⟩ := h.exists_record
    obtain ⟨others, hothers, hshapes⟩ := fieldsOf?_eq_some_iff.mp hbody
    rw [hitems] at hothers
    injection hothers with hothers
    injection hothers with hothers
    obtain ⟨t, mid, last, ht, hread⟩ := hfields.exists_getElem?
      (getElem?_type_of_shapes (hothers ▸ hshapes.symm) hfield hin)
    refine ⟨t, mid, last, by rwa [List.getElem?_map] at ht, ?_⟩
    -- the fields inherit what stands before the last dot of the record's full name
    have hspace : handedDown (some r) = decl.scopeIn (handedDown around) := by
      show spaceBefore? r.fullName = decl.scopeIn (handedDown around)
      rw [hname, Declaration.spaceBefore?_fullNameIn]
    exact hspace ▸ hread

/-- **What was read at a place** of a document was read with the namespace of the record that is
nearest around it. -/
theorem Resolved.readAt? {turns : List Turn} {around : Option Record} {v w : Json} {s : Schema}
    (h : Resolved (handedDown around) scope [ofJson v] [s] after)
    (hw : v.schemaAt? turns = some w) :
    ∃ inside t before behind, s.readAt? around turns = some (inside, t)
      ∧ Resolved (handedDown inside) before [ofJson w] [t] behind := by
  induction turns generalizing v s around scope after with
  | nil =>
    injection hw with hw
    exact ⟨around, s, scope, after, rfl, hw ▸ h⟩
  | cons turn rest ih =>
    obtain ⟨u, hu, hw⟩ := Option.bind_eq_some_iff.mp hw
    obtain ⟨t, before, behind, ht, hread⟩ := h.inner? hu
    obtain ⟨inside, found, mid, last, hfound, hlast⟩ := ih hread hw
    exact ⟨inside, found, mid, last, Option.bind_eq_some_iff.mpr ⟨t, ht, hfound⟩, hlast⟩

end Outline

/-! ## §4. The full names of definitions. -/

/-- The tags of the objects that define a name. -/
def definitionTags : List String := ["record", "error", "enum", "fixed"]

/-- A schema is what a definition with that tag and that full name is read as. -/
def Schema.IsDefinition (tag fullName : String) : Schema → Prop
  | .record r => (tag = "record" ∨ tag = "error") ∧ r.fullName = fullName
  | .enum n => tag = "enum" ∧ n = fullName
  | .fixed n => tag = "fixed" ∧ n = fullName
  | _ => False

/-- An object states a namespace when a string stands under `namespace`. -/
def Json.StatesNamespace (v : Json) : Prop := ∃ ns, v.member? "namespace" = some (.str ns)

/-- **The rules of full names**: what a definition that stands inside the record `around` is
called. -/
structure NamedIn (definition : Json) (around : Option String) (name fullName : String) :
    Prop where
  name_eq : definition.member? "name" = some (.str name)
  dotted : isDotted name = true → fullName = name
  own (ns : String) : isDotted name = false → definition.member? "namespace" = some (.str ns) →
    fullName = if ns = "" then name else ns ++ "." ++ name
  inherited (ns last : String) : isDotted name = false → ¬ definition.StatesNamespace →
    around = some (ns ++ "." ++ last) → isDotted last = false →
    fullName = if ns = "" then name else ns ++ "." ++ name
  bare : isDotted name = false → ¬ definition.StatesNamespace →
    (∀ outer, around = some outer → isDotted outer = false) → fullName = name
  shortName_eq : isDotted name = false → shortName fullName = name

/-- A name without a dot is put behind a namespace that is not empty. -/
theorem qualify_of_undotted {name : String} (h : isDotted name = false) (ns : String) :
    qualify name (some ns) = if ns = "" then name else ns ++ "." ++ name := by
  simp [qualify, h]

/-- The empty namespace makes no difference to a full name. -/
theorem qualify_filter_nonempty (name : String) (space : Option String) :
    qualify name (space.filter fun ns => !ns.isEmpty) = qualify name space := by
  cases space with
  | none => rfl
  | some ns =>
    by_cases hempty : ns.isEmpty = true
    · simp [Option.filter, qualify, hempty]
    · simp [Option.filter, hempty]

theorem Declaration.fullNameIn_of_undotted {d : Declaration} (h : isDotted d.name = false)
    (inherited : Option String) :
    d.fullNameIn inherited = qualify d.name (d.space.or inherited) := by
  unfold Declaration.fullNameIn Declaration.scopeIn
  simp only [h, Bool.false_eq_true, if_false]
  exact qualify_filter_nonempty d.name (d.space.or inherited)

theorem Declares.space_eq_none {members : List (String × Json)} {decl : Declaration}
    (h : Declares members decl) (hnot : ¬ (Json.obj members).StatesNamespace) :
    decl.space = none := by
  rw [← h.space_eq]
  cases hspace : Json.stringMember? members "namespace" with
  | none => rfl
  | some ns =>
    obtain ⟨v, hv, hstring⟩ := Option.bind_eq_some_iff.mp hspace
    exact absurd ⟨ns, Json.eq_str_of_string?_eq_some hstring ▸ hv⟩ hnot

/-- A definition is called by the rules. -/
theorem Declares.namedIn {members : List (String × Json)} {decl : Declaration}
    (h : Declares members decl) (around : Option Record) :
    NamedIn (.obj members) (around.map RecordOf.fullName) decl.name
      (decl.fullNameIn (handedDown around)) where
  name_eq := by
    obtain ⟨v, hv, hstring⟩ := Option.bind_eq_some_iff.mp h.name_eq
    exact Json.eq_str_of_string?_eq_some hstring ▸ hv
  dotted hdotted := if_pos hdotted
  own ns hname hspace := by
    have hown : decl.space = some ns := by
      rw [← h.space_eq]
      exact Option.bind_eq_some_iff.mpr ⟨.str ns, hspace, rfl⟩
    rw [Declaration.fullNameIn_of_undotted hname, hown, Option.some_or]
    exact qualify_of_undotted hname ns
  inherited ns last hname hnot haround hlast := by
    obtain ⟨r, rfl, hr⟩ := Option.map_eq_some_iff.mp haround
    have hhanded : handedDown (some r) = some ns := spaceBefore?_eq_some_iff.mpr ⟨last, hlast, hr⟩
    rw [Declaration.fullNameIn_of_undotted hname, h.space_eq_none hnot, hhanded, Option.none_or]
    exact qualify_of_undotted hname ns
  bare hname hnot haround := by
    have hhanded : handedDown around = none := by
      cases around with
      | none => rfl
      | some r => exact spaceBefore?_eq_none_iff.mpr (haround r.fullName rfl)
    rw [Declaration.fullNameIn_of_undotted hname, h.space_eq_none hnot, hhanded]
    rfl
  shortName_eq hname := by
    rw [Declaration.fullNameIn_of_undotted hname]
    exact shortName_qualify hname _

/-- What the object of a definition is read as. -/
theorem Outline.Resolved.isDefinition {space : Option String} {scope after : Scope} {v : Json}
    {s : Schema} {tag : String} (h : Resolved space scope [ofJson v] [s] after)
    (htag : v.tag? = some tag) (hkind : tag ∈ definitionTags) :
    ∃ members decl, v = .obj members ∧ Declares members decl
      ∧ s.IsDefinition tag (decl.fullNameIn space) := by
  obtain ⟨members, rfl, htype⟩ := Json.tag?_eq_some_iff.mp htag
  have hcases : (tag = "record" ∨ tag = "error") ∨ tag = "enum" ∨ tag = "fixed" := by
    simpa [definitionTags, or_assoc] using hkind
  rcases hcases with hrecord | rfl | rfl
  · rw [ofJson_record htype hrecord] at h
    obtain ⟨decl, hdecl, h⟩ := h.exists_of_getD
    obtain ⟨r, fs, before, behind, rfl, hname, -, -⟩ := h.exists_record
    exact ⟨members, decl, rfl, declaration?_eq_some_iff.mp hdecl, hrecord, hname⟩
  · rw [ofJson_enum htype] at h
    obtain ⟨decl, hdecl, h⟩ := h.exists_of_getD
    cases h with
    | enum hdefine rest =>
      obtain ⟨-, rfl, -⟩ := Scope.define_eq_ok_iff.mp hdefine
      exact ⟨members, decl, rfl, declaration?_eq_some_iff.mp hdecl, rfl, rfl⟩
  · rw [ofJson_fixed htype] at h
    obtain ⟨decl, hdecl, h⟩ := h.exists_of_getD
    cases h with
    | fixed hdefine rest =>
      obtain ⟨-, rfl, -⟩ := Scope.define_eq_ok_iff.mp hdefine
      exact ⟨members, decl, rfl, declaration?_eq_some_iff.mp hdecl, rfl, rfl⟩

/-- The rules leave no choice. -/
theorem NamedIn.unique {definition : Json} {around : Option String} {name fullName other : String}
    (h : NamedIn definition around name fullName) (h' : NamedIn definition around name other) :
    fullName = other := by
  by_cases hname : isDotted name = true
  · exact (h.dotted hname).trans (h'.dotted hname).symm
  · have hname : isDotted name = false := by simpa using hname
    by_cases hown : definition.StatesNamespace
    · obtain ⟨ns, hns⟩ := hown
      exact (h.own ns hname hns).trans (h'.own ns hname hns).symm
    · by_cases houter : ∃ outer, around = some outer ∧ isDotted outer = true
      · obtain ⟨outer, haround, hdotted⟩ := houter
        obtain ⟨ns, last, hlast, rfl⟩ := exists_append_dot hdotted
        exact (h.inherited ns last hname hown haround hlast).trans
          (h'.inherited ns last hname hown haround hlast).symm
      · have hbare : ∀ outer, around = some outer → isDotted outer = false := by
          intro outer haround
          by_contra hdotted
          exact houter ⟨outer, haround, by simpa using hdotted⟩
        exact (h.bare hname hown hbare).trans (h'.bare hname hown hbare).symm

/-- **The full name of every definition**: in a document that is read, a definition at any place is
read as one whose full name follows from its own name and namespace and from the full name of the
record that is nearest around it. -/
theorem Schema.ofJson_fullNames {firstId next : Nat} {v definition : Json} {s : Schema}
    {turns : List Turn} {tag : String} (h : Schema.ofJson firstId v = .ok (s, next))
    (hplace : v.schemaAt? turns = some definition) (htag : definition.tag? = some tag)
    (hkind : tag ∈ definitionTags) :
    ∃ (around : Option Record) (t : Schema) (name fullName : String),
      s.readAt? none turns = some (around, t) ∧ t.IsDefinition tag fullName
        ∧ NamedIn definition (around.map RecordOf.fullName) name fullName := by
  obtain ⟨after, -, hread⟩ := Schema.ofJson_eq_ok_iff.mp h
  -- a document begins outside of all records, where no namespace is handed down
  have hstart : Outline.Resolved (handedDown none) (Scope.start firstId) [Outline.ofJson v] [s]
      after := hread
  obtain ⟨around, t, before, behind, ht, hresolved⟩ := hstart.readAt? hplace
  obtain ⟨members, decl, rfl, hdecl, hdefinition⟩ := hresolved.isDefinition htag hkind
  exact ⟨around, t, decl.name, decl.fullNameIn (handedDown around), ht, hdefinition,
    hdecl.namedIn around⟩

/-- The enumeration that stands twice in the document of the item. -/
def kindSource : Json := .obj [("type", .str "enum"), ("name", .str "Kind"), ("symbols", .arr [])]

/-- The enumeration in the field of `ns.Item` inherits its namespace; the one in front of the record
inherits none. -/
theorem Schema.ofJson_fullNames_item :
    ofJson 0 itemSource = .ok (itemSchema, 1)
      ∧ itemSource.schemaAt? [.branch 1, .field 0] = some kindSource
      ∧ kindSource.tag? = some "enum" ∧ "enum" ∈ definitionTags
      ∧ ∃ around t name fullName,
        itemSchema.readAt? none [.branch 1, .field 0] = some (around, t)
          ∧ t.IsDefinition "enum" fullName
          ∧ NamedIn kindSource (around.map RecordOf.fullName) name fullName :=
  ⟨ofJson_itemSource, rfl, rfl, by decide,
    ofJson_fullNames ofJson_itemSource rfl rfl (by decide)⟩

end AvroSwagger
