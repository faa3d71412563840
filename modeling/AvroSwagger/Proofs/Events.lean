import AvroSwagger.Schema.Resolve

/-!
# AvroSwagger.Proofs.Events

**A schema from its front to its end: what is named, and what is defined.**

The events of a schema are listed in document order: a name is looked up, a record
is opened, a record is closed, an enumeration or a fixed type is defined.  The list
is read off the outline and the schema side by side, without the reader.  The marks
of an outline are the part of it that needs no schema: which name stands where, and
where each definition begins.

Main definitions: `Outline.marks`, `Outline.log`.
-/

namespace AvroSwagger

/-! ## §1. Marks and events. -/

/-- A place of a document that a name depends on. -/
inductive Mark where
  /-- A name where a schema is expected, and the namespace around it. -/
  | reference (name : String) (space : Option String)
  /-- The beginning of a definition. -/
  | definition (fullName : String)

namespace Mark

/-- The full name of the definition that begins here. -/
def definition? : Mark → Option String
  | .definition fullName => some fullName
  | .reference _ _ => none

end Mark

/-- The full names of the definitions that begin in a list of marks. -/
def definedNames (marks : List Mark) : List String := marks.filterMap Mark.definition?

@[simp] theorem definedNames_nil : definedNames [] = [] := rfl

@[simp] theorem definedNames_append (front back : List Mark) :
    definedNames (front ++ back) = definedNames front ++ definedNames back :=
  List.filterMap_append

/-- What happens at a place of a document when it is read, with the schema it comes to. -/
inductive Event where
  /-- A name inside a namespace stands for a schema. -/
  | reference (name : String) (space : Option String) (schema : Schema)
  /-- The fields of a record begin. -/
  | opened (fullName : String)
  /-- The fields of a record end; the record is complete. -/
  | closed (fullName : String) (schema : Schema)
  /-- A definition without parts. -/
  | defined (fullName : String) (schema : Schema)

namespace Event

/-- The mark at which an event happens; the end of a record is none. -/
def mark? : Event → Option Mark
  | .reference name space _ => some (.reference name space)
  | .opened fullName => some (.definition fullName)
  | .closed _ _ => none
  | .defined fullName _ => some (.definition fullName)

/-- The definition that an event completes. -/
def completion? : Event → Option (String × Schema)
  | .closed fullName schema => some (fullName, schema)
  | .defined fullName schema => some (fullName, schema)
  | _ => none

end Event

namespace Outline

mutual

/-- **The marks of an outline** inside a namespace, in document order. -/
def marks (space : Option String) : Outline → List Mark
  | .malformed _ => []
  | .reference name => [.reference name space]
  | .union branches => marksAll space branches
  | .array items => marks space items
  | .map values => marks space values
  | .enum decl => [.definition (decl.fullNameIn space)]
  | .fixed decl => [.definition (decl.fullNameIn space)]
  | .record decl _ fields =>
    .definition (decl.fullNameIn space) :: marksBody (decl.scopeIn space) fields

/-- The marks of a list of outlines. -/
def marksAll (space : Option String) : List Outline → List Mark
  | [] => []
  | o :: rest => marks space o ++ marksAll space rest

/-- The marks of the body of a record. -/
def marksBody (space : Option String) : Option (List (FieldShape Outline)) → List Mark
  | none => []
  | some shapes => marksFields space shapes

/-- The marks of a list of fields. -/
def marksFields (space : Option String) : List (FieldShape Outline) → List Mark
  | [] => []
  | shape :: rest => marksField space shape ++ marksFields space rest

/-- The marks of one field. -/
def marksField (space : Option String) : FieldShape Outline → List Mark
  | .typed ⟨_, _, type⟩ => marks space type
  | _ => []

end

mutual

/-- **The events of an outline** that was read as a schema, in document order. -/
def log (space : Option String) : Outline → Schema → List Event
  | .reference name, s => [.reference name space s]
  | .union branches, .union schemas => logAll space branches schemas
  | .array items, .array s => log space items s
  | .map values, .map s => log space values s
  | .enum decl, s => [.defined (decl.fullNameIn space) s]
  | .fixed decl, s => [.defined (decl.fullNameIn space) s]
  -- a name inside its own record is met between the two events
  | .record decl _ fields, s =>
    .opened (decl.fullNameIn space)
      :: logBody (decl.scopeIn space) fields s ++ [.closed (decl.fullNameIn space) s]
  | _, _ => []

/-- The events of a list of outlines. -/
def logAll (space : Option String) : List Outline → List Schema → List Event
  | o :: os, s :: ss => log space o s ++ logAll space os ss
  | _, _ => []

/-- The events between the beginning and the end of a record. -/
def logBody (space : Option String) : Option (List (FieldShape Outline)) → Schema → List Event
  | some shapes, .record r => logFields space shapes r.fields
  | _, _ => []

/-- The events of a list of fields. -/
def logFields (space : Option String) :
    List (FieldShape Outline) → List (Field Schema) → List Event
  | shape :: shapes, f :: fields => logField space shape f.type ++ logFields space shapes fields
  | _, _ => []

/-- The events of one field. -/
def logField (space : Option String) : FieldShape Outline → Schema → List Event
  | .typed ⟨_, _, type⟩, s => log space type s
  | _, _ => []

end

/-! ## §2. Records. -/

theorem logFields_map_typed (space : Option String) (fs : List (Field Outline))
    (fields : List (Field Schema)) :
    logFields space (fs.map .typed) fields
      = logAll space (fs.map Field.type) (fields.map Field.type) := by
  induction fs generalizing fields with
  | nil => cases fields <;> rfl
  | cons f fs ih =>
    cases fields with
    | nil => rfl
    | cons g fields => simp [logFields, logAll, logField, ih]

/-- The events of a record: its beginning, those of its field types, its end. -/
theorem logAll_record_cons (space : Option String) (decl : Declaration) (doc : Option String)
    (fs : List (Field Outline)) (r : Record) (os : List Outline) (ss : List Schema) :
    logAll space (.record decl doc (some (fs.map .typed)) :: os) (.record r :: ss)
      = .opened (decl.fullNameIn space)
        :: (logAll (decl.scopeIn space) (fs.map Field.type) (r.fields.map Field.type)
          ++ .closed (decl.fullNameIn space) (.record r) :: logAll space os ss) := by
  rw [logAll, log, logBody, logFields_map_typed]
  simp

theorem marksFields_map_typed (space : Option String) (fs : List (Field Outline)) :
    marksFields space (fs.map .typed) = marksAll space (fs.map Field.type) := by
  induction fs with
  | nil => rfl
  | cons f fs ih => simp [marksFields, marksAll, marksField, ih]

/-- The marks of a record: its beginning and those of its field types. -/
theorem marksAll_record_cons (space : Option String) (decl : Declaration) (doc : Option String)
    (fs : List (Field Outline)) (os : List Outline) :
    marksAll space (.record decl doc (some (fs.map .typed)) :: os)
      = .definition (decl.fullNameIn space)
        :: (marksAll (decl.scopeIn space) (fs.map Field.type) ++ marksAll space os) := by
  rw [marksAll, marks, marksBody, marksFields_map_typed]
  rfl

end Outline

end AvroSwagger
