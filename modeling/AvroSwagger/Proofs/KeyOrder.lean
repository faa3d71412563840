import AvroSwagger.Proofs.Grammar
import AvroSwagger.Proofs.LayeringLaws
import AvroSwagger.Proofs.Parts
import AvroSwagger.Schema.Resolve
import Mathlib.Data.List.Forall2

/-!
# AvroSwagger.Proofs.KeyOrder

**A schema is read up to the order of keys and up to attributes without a meaning.**

Seven keys have a meaning in a schema.  Values agree when they are built alike and
their objects hold agreeing values under these keys, in whatever order and with
whatever else beside them.

Wherever a value stands, it is looked at in one of four ways: as a name, as a schema, as
a field, or as a list of fields.  What an object says in any of them depends on what the
values under the seven keys say.  So values that agree have the same outline, and the
reader, which sees the outline only, goes the same way through both: it finds the
same names, shares the same records and stops at the same fault.

The labels of records are counted from where the reader starts, and nothing is
decided by them: a reader that starts elsewhere gives each record the label that lies
as far behind its start.

Main statements:
  * `Json.AgreesOn.reading_eq`: values that agree say the same;
  * `Outline.resolve_shift`: the first label does not matter;
  * `Schema.ofJson_agreesOn`: documents that agree are read alike.
-/

namespace AvroSwagger

open OrderedMap

/-! ## §1. Values that agree. -/

namespace Json

/-- The keys that have a meaning in a schema. -/
def schemaKeys : List String := ["type", "name", "namespace", "doc", "fields", "items", "values"]

/-- **Values that differ only in the order of keys and in attributes under other keys**, at any
depth. -/
inductive AgreesOn (keys : List String) : Json → Json → Prop
  | scalar {v : Json} (h : v.kind = .scalar) : AgreesOn keys v v
  | arr {vs ws : List Json} (h : List.Forall₂ (AgreesOn keys) vs ws) :
      AgreesOn keys (.arr vs) (.arr ws)
  | obj {a b : List (String × Json)}
      (h : ∀ key ∈ keys, Option.Rel (AgreesOn keys) (find? a key) (find? b key)) :
      AgreesOn keys (.obj a) (.obj b)

theorem agreesOn_refl (keys : List String) (v : Json) : AgreesOn keys v v := by
  induction v using child_induction with
  | inside v ih =>
  cases v with
  | arr items =>
    refine .arr (List.forall₂_same.mpr fun item hitem => ?_)
    obtain ⟨i, hi⟩ := List.mem_iff_getElem?.mp hitem
    exact ih (.index i) item hi
  | obj members =>
    refine .obj fun key _ => ?_
    cases hfound : find? members key with
    | none => exact .none
    | some child => exact .some (ih (.key key) child hfound)
  | _ => exact .scalar rfl

/-- Members that agree pair by pair agree in what is found. -/
theorem rel_find?_of_forall₂ {keys : List String} {a b : OrderedMap Json}
    (h : List.Forall₂ (fun kv kv' => kv.1 = kv'.1 ∧ AgreesOn keys kv.2 kv'.2) a b)
    (key : String) : Option.Rel (AgreesOn keys) (a.find? key) (b.find? key) := by
  induction h with
  | nil => exact .none
  | @cons kv kv' _ _ hhead _ ih =>
    obtain ⟨k, v⟩ := kv
    obtain ⟨k', v'⟩ := kv'
    obtain ⟨rfl, hv⟩ : k = k' ∧ AgreesOn keys v v' := hhead
    rw [find?_cons, find?_cons]
    split
    · exact .some hv
    · exact ih

/-- **Objects agree when their members under the keys do**, put into one order and apart from all
other members. -/
theorem agreesOn_of_members {keys : List String} {a b c : OrderedMap Json}
    (hnodup : a.keys.Nodup) (hperm : (a.filter fun kv => decide (kv.1 ∈ keys)).Perm c)
    (h : List.Forall₂ (fun kv kv' => kv.1 = kv'.1 ∧ AgreesOn keys kv.2 kv'.2) c
      (b.filter fun kv => decide (kv.1 ∈ keys))) : AgreesOn keys (.obj a) (.obj b) := by
  have hkept : ∀ (m : OrderedMap Json) (key), key ∈ keys →
      find? (m.filter fun kv => decide (kv.1 ∈ keys)) key = m.find? key := by
    intro m key hkey
    rw [find?_filter (fun k => decide (k ∈ keys)), decide_eq_true hkey, if_pos rfl]
  have hdistinct : (OrderedMap.keys (a.filter fun kv => decide (kv.1 ∈ keys))).Nodup := by
    rw [keys_filter (fun k => decide (k ∈ keys))]
    exact hnodup.filter _
  refine .obj fun key hkey => ?_
  rw [← hkept a key hkey, ← hkept b key hkey, find?_eq_of_perm hdistinct hperm key]
  exact rel_find?_of_forall₂ h key

end Json

/-! ## §2. What a value says. -/

namespace Json

/-- What a value says where a name, a schema, a field or a list of fields is looked for. -/
structure Reading where
  name : Option String
  outline : Outline
  field : FieldShape Outline
  fields : Option (List (FieldShape Outline))

/-- The fields of a list. -/
def fieldList? : Json → Option (List (FieldShape Outline))
  | .arr items => some (items.map Outline.shapeOf)
  | _ => none

/-- **What a value says.** -/
def reading (v : Json) : Reading := ⟨v.string?, .ofJson v, Outline.shapeOf v, v.fieldList?⟩

variable {a b : List (String × Json)} {key : String}

theorem stringMember?_eq_bind (members : OrderedMap Json) (key : String) :
    stringMember? members key = ((members.find? key).map reading).bind Reading.name := by
  rw [stringMember?]
  cases members.find? key <;> rfl

theorem map_ofJson_find? (members : OrderedMap Json) (key : String) :
    (members.find? key).map Outline.ofJson
      = ((members.find? key).map reading).map Reading.outline := by
  rw [Option.map_map]
  rfl

theorem fieldsOf?_eq_bind (members : List (String × Json)) :
    Outline.fieldsOf? members = ((find? members "fields").map reading).bind Reading.fields := by
  refine Option.ext fun shapes => ?_
  rw [Outline.fieldsOf?_eq_some_iff]
  cases find? members "fields" with
  | none => simp
  | some v => cases v <;> simp [reading, fieldList?, eq_comm]

/-- What objects say under the keys is the same. -/
def SaysAlike (a b : List (String × Json)) : Prop :=
  ∀ key ∈ schemaKeys, (find? a key).map reading = (find? b key).map reading

theorem SaysAlike.stringMember?_eq (h : SaysAlike a b) (hkey : key ∈ schemaKeys) :
    stringMember? a key = stringMember? b key := by
  rw [stringMember?_eq_bind, stringMember?_eq_bind, h key hkey]

theorem SaysAlike.map_ofJson (h : SaysAlike a b) (hkey : key ∈ schemaKeys) :
    (find? a key).map Outline.ofJson = (find? b key).map Outline.ofJson := by
  rw [map_ofJson_find?, map_ofJson_find?, h key hkey]

theorem SaysAlike.fieldsOf?_eq (h : SaysAlike a b) :
    Outline.fieldsOf? a = Outline.fieldsOf? b := by
  rw [fieldsOf?_eq_bind, fieldsOf?_eq_bind, h "fields" (by decide)]

theorem SaysAlike.declaration?_eq (h : SaysAlike a b) :
    Outline.declaration? a = Outline.declaration? b := by
  rw [Outline.declaration?, Outline.declaration?, h.stringMember?_eq (by decide),
    h.stringMember?_eq (by decide)]

/-- **The outline of an object depends on what the values under the keys say.** -/
theorem SaysAlike.ofJson_eq (h : SaysAlike a b) :
    Outline.ofJson (.obj a) = Outline.ofJson (.obj b) := by
  have htype := h "type" (by decide)
  cases ha : find? a "type" with
  | none =>
    rw [ha, Option.map_none, eq_comm, Option.map_eq_none_iff] at htype
    rw [Outline.ofJson, Outline.ofJson, ha, htype]
  | some v =>
    rw [ha, Option.map_some, eq_comm, Option.map_eq_some_iff] at htype
    obtain ⟨w, hb, hread⟩ := htype
    have hname : w.string? = v.string? := congrArg Reading.name hread
    cases htag : v.string? with
    | none =>
      rw [Outline.ofJson_nested ha htag, Outline.ofJson_nested hb (hname.trans htag)]
      exact (congrArg Reading.outline hread).symm
    | some tag =>
      rw [eq_str_of_string?_eq_some htag] at ha
      rw [eq_str_of_string?_eq_some (hname.trans htag)] at hb
      by_cases hkind : tag ∈ kindTags
      · by_cases hrecord : tag = "record" ∨ tag = "error"
        · rw [Outline.ofJson_record ha hrecord, Outline.ofJson_record hb hrecord,
            h.declaration?_eq, h.fieldsOf?_eq, h.stringMember?_eq (by decide)]
        · simp only [kindTags, List.mem_cons, List.not_mem_nil, or_false] at hkind
          rcases hkind with rfl | rfl | rfl | rfl | rfl | rfl
          · exact absurd (Or.inl rfl) hrecord
          · exact absurd (Or.inr rfl) hrecord
          · rw [Outline.ofJson_enum ha, Outline.ofJson_enum hb, h.declaration?_eq]
          · rw [Outline.ofJson_fixed ha, Outline.ofJson_fixed hb, h.declaration?_eq]
          · have hitems := congrArg (Option.map Outline.array)
              (h.map_ofJson (by decide : "items" ∈ schemaKeys))
            rw [Option.map_map, Option.map_map] at hitems
            rw [Outline.ofJson_array ha, Outline.ofJson_array hb]
            exact congrArg (Option.getD · _) hitems
          · have hvalues := congrArg (Option.map Outline.map)
              (h.map_ofJson (by decide : "values" ∈ schemaKeys))
            rw [Option.map_map, Option.map_map] at hvalues
            rw [Outline.ofJson_map ha, Outline.ofJson_map hb]
            exact congrArg (Option.getD · _) hvalues
      · rw [Outline.ofJson_reference ha hkind, Outline.ofJson_reference hb hkind]

/-- A field depends on what the values under the keys say. -/
theorem SaysAlike.shapeOf_eq (h : SaysAlike a b) :
    Outline.shapeOf (.obj a) = Outline.shapeOf (.obj b) := by
  have htype : Outline.ofMember? "type" a = Outline.ofMember? "type" b := by
    rw [Outline.ofMember?_eq, Outline.ofMember?_eq, h.map_ofJson (by decide)]
  rw [Outline.shapeOf, Outline.shapeOf, htype, h.stringMember?_eq (by decide),
    h.stringMember?_eq (by decide)]

/-- What a list says depends on what its items say. -/
theorem reading_arr_congr {vs ws : List Json} (h : vs.map reading = ws.map reading) :
    reading (.arr vs) = reading (.arr ws) := by
  have houtlines := congrArg (List.map Reading.outline) h
  have hfields := congrArg (List.map Reading.field) h
  rw [List.map_map, List.map_map] at houtlines hfields
  have hfield : Outline.shapeOf (.arr vs) = Outline.shapeOf (.arr ws) := by
    rw [Outline.shapeOf, Outline.shapeOf] <;> simp
  rw [reading, reading, Outline.ofJson, Outline.ofJson, Outline.ofItems_eq_map,
    Outline.ofItems_eq_map, fieldList?, fieldList?, hfield, Reading.mk.injEq]
  exact ⟨rfl, congrArg Outline.union houtlines, rfl, congrArg some hfields⟩

/-- Related lists have equal images where the relation forces it. -/
theorem map_eq_of_forall₂ {R : Json → Json → Prop} {vs ws : List Json}
    (h : List.Forall₂ R vs ws) (hread : ∀ x ∈ vs, ∀ y, R x y → x.reading = y.reading) :
    vs.map reading = ws.map reading := by
  induction h with
  | nil => rfl
  | @cons x y _ _ hxy _ ih =>
    rw [List.map_cons, List.map_cons, hread x List.mem_cons_self y hxy,
      ih fun z hz => hread z (List.mem_cons_of_mem _ hz)]

theorem map_eq_of_rel {R : Json → Json → Prop} {v w : Option Json} (h : Option.Rel R v w)
    (hread : ∀ x, v = some x → ∀ y, R x y → x.reading = y.reading) :
    v.map reading = w.map reading := by
  cases h with
  | none => rfl
  | some hxy => exact congrArg some (hread _ rfl _ hxy)

/-- **Values that agree say the same.** -/
theorem AgreesOn.reading_eq {v w : Json} (h : AgreesOn schemaKeys v w) :
    v.reading = w.reading := by
  induction v using child_induction generalizing w with
  | inside v ih =>
  cases h with
  | scalar => rfl
  | arr h =>
    refine reading_arr_congr (map_eq_of_forall₂ h fun x hx _ hxy => ?_)
    obtain ⟨i, hi⟩ := List.mem_iff_getElem?.mp hx
    exact ih (.index i) x hi hxy
  | @obj a b h =>
    have halike : SaysAlike a b := fun key hkey =>
      map_eq_of_rel (h key hkey) fun x hx _ hxy => ih (.key key) x hx hxy
    rw [reading, reading, halike.ofJson_eq, halike.shapeOf_eq]
    rfl

end Json

/-! ## §3. Labels that are moved. -/

namespace Schema

mutual

/-- The schema with every label moved. -/
def shift (k : Nat) : Schema → Schema
  | .array items => .array (items.shift k)
  | .map values => .map (values.shift k)
  | .union branches => .union (shiftBranches k branches)
  | .record r => .record (shiftRecord k r)
  | .null => .null
  | .boolean => .boolean
  | .int => .int
  | .long => .long
  | .float => .float
  | .double => .double
  | .bytes => .bytes
  | .string => .string
  | .enum fullName => .enum fullName
  | .fixed fullName => .fixed fullName
  | .named fullName => .named fullName

/-- The branches with every label moved. -/
def shiftBranches (k : Nat) : List Schema → List Schema
  | [] => []
  | b :: rest => b.shift k :: shiftBranches k rest

/-- The record with its label and every label in it moved. -/
def shiftRecord (k : Nat) : RecordOf Schema → RecordOf Schema
  | ⟨id, fullName, doc, fields⟩ => ⟨id + k, fullName, doc, shiftFields k fields⟩

/-- The fields with every label moved. -/
def shiftFields (k : Nat) : List (Field Schema) → List (Field Schema)
  | [] => []
  | ⟨name, doc, type⟩ :: rest => ⟨name, doc, type.shift k⟩ :: shiftFields k rest

end

mutual

/-- Moved labels do not count in the comparison. -/
theorem same_shift (j k : Nat) : ∀ s : Schema, (s.shift j).same (s.shift k) = true
  | .array items => by rw [shift, shift, same, same_shift j k items]
  | .map values => by rw [shift, shift, same, same_shift j k values]
  | .union branches => by rw [shift, shift, same, sameBranches_shift j k branches]
  | .record r => by rw [shift, shift, same, sameRecord_shift j k r]
  | .null | .boolean | .int | .long | .float | .double | .bytes | .string => by
    rw [shift, shift, same]
  | .enum _ | .fixed _ | .named _ => by rw [shift, shift, same, beq_self_eq_true]

theorem sameBranches_shift (j k : Nat) : ∀ branches : List Schema,
    sameBranches (shiftBranches j branches) (shiftBranches k branches) = true
  | [] => by rw [shiftBranches, shiftBranches, sameBranches]
  | b :: rest => by
    rw [shiftBranches, shiftBranches, sameBranches, same_shift j k b, sameBranches_shift j k rest,
      Bool.and_self]

theorem sameRecord_shift (j k : Nat) : ∀ r : Record,
    sameRecord (shiftRecord j r) (shiftRecord k r) = true
  | ⟨_, _, _, fields⟩ => by
    rw [shiftRecord, shiftRecord, sameRecord, sameFields_shift j k fields]
    simp

theorem sameFields_shift (j k : Nat) : ∀ fields : List (Field Schema),
    sameFields (shiftFields j fields) (shiftFields k fields) = true
  | [] => by rw [shiftFields, shiftFields, sameFields]
  | ⟨_, _, type⟩ :: rest => by
    rw [shiftFields, shiftFields, sameFields, same_shift j k type, sameFields_shift j k rest]
    simp

end

mutual

/-- The records of a schema with moved labels. -/
theorem records_shift (k : Nat) : ∀ s : Schema, (s.shift k).records = s.records.map (shiftRecord k)
  | .array items => by rw [shift, records, records, records_shift k items]
  | .map values => by rw [shift, records, records, records_shift k values]
  | .union branches => by rw [shift, records, records, recordsOfBranches_shift k branches]
  | .record r => by rw [shift, records, records, recordsOfRecord_shift k r, List.map_cons]
  | .null | .boolean | .int | .long | .float | .double | .bytes | .string => rfl
  | .enum _ | .fixed _ | .named _ => rfl

theorem recordsOfBranches_shift (k : Nat) : ∀ branches : List Schema,
    recordsOfBranches (shiftBranches k branches) = (recordsOfBranches branches).map (shiftRecord k)
  | [] => rfl
  | b :: rest => by
    rw [shiftBranches, recordsOfBranches, recordsOfBranches, records_shift k b,
      recordsOfBranches_shift k rest, List.map_append]

theorem recordsOfRecord_shift (k : Nat) : ∀ r : Record,
    recordsOfRecord (shiftRecord k r) = (recordsOfRecord r).map (shiftRecord k)
  | ⟨_, _, _, fields⟩ => by
    rw [shiftRecord, recordsOfRecord, recordsOfRecord, recordsOfFields_shift k fields]

theorem recordsOfFields_shift (k : Nat) : ∀ fields : List (Field Schema),
    recordsOfFields (shiftFields k fields) = (recordsOfFields fields).map (shiftRecord k)
  | [] => rfl
  | ⟨_, _, type⟩ :: rest => by
    rw [shiftFields, recordsOfFields, recordsOfFields, records_shift k type,
      recordsOfFields_shift k rest, List.map_append]

end

theorem id_shiftRecord (k : Nat) (r : Record) : (shiftRecord k r).id = r.id + k := by
  obtain ⟨id, fullName, doc, fields⟩ := r
  rfl

/-- Primitives have no labels. -/
theorem shift_of_primitive? {name : String} {s : Schema} (h : primitive? name = some s) (k : Nat) :
    s.shift k = s := by
  unfold primitive? at h
  split at h <;> cases h <;> rfl

end Schema

namespace Scope

/-- The scope with every label moved. -/
def shift (k : Nat) (scope : Scope) : Scope :=
  ⟨scope.completed.mapValues (Schema.shift k), scope.openRecords, scope.nextId + k⟩

variable {scope : Scope}

theorem find?_completed_shift (k : Nat) (fullName : String) :
    (scope.shift k).completed.find? fullName
      = (scope.completed.find? fullName).map (Schema.shift k) :=
  find?_mapValues _ _ _

theorem isCompleted_shift (k : Nat) (fullName : String) :
    (scope.shift k).isCompleted fullName = scope.isCompleted fullName := by
  rw [isCompleted, isCompleted, find?_completed_shift, Option.isSome_map]

theorem lookup_shift (k : Nat) (name : String) (space : Option String) :
    (scope.shift k).lookup name space = (scope.lookup name space).map (Schema.shift k) := by
  unfold lookup
  cases hprimitive : Schema.primitive? name with
  | some s => exact congrArg Except.ok (Schema.shift_of_primitive? hprimitive k).symm
  | none =>
    simp only [find?_completed_shift, ← Option.map_or]
    cases (scope.completed.find? (qualify name space)).or (scope.completed.find? name) with
    | some found => rfl
    | none =>
      show (if qualify name space ∈ scope.openRecords then _
        else if name ∈ scope.openRecords then _ else _) = _
      by_cases hqualified : qualify name space ∈ scope.openRecords
      · rw [if_pos hqualified]
        rfl
      by_cases hwritten : name ∈ scope.openRecords
      · rw [if_neg hqualified, if_pos hwritten]
        rfl
      · rw [if_neg hqualified, if_neg hwritten]
        rfl

/-- What a reader gives, with every label moved. -/
def shiftResult {α : Type} (move : α → α) (k : Nat) (result : α × Scope) : α × Scope :=
  (move result.1, result.2.shift k)

theorem define_shift (k : Nat) (fullName : String) (s : Schema) :
    (scope.shift k).define fullName (s.shift k)
      = (scope.define fullName s).map (shiftResult (Schema.shift k) k) := by
  unfold define
  rw [isCompleted_shift]
  split <;> rfl

theorem completeRecord_shift (k : Nat) (fullName : String) (doc : Option String)
    (fields : List (Field Schema)) :
    (scope.shift k).completeRecord fullName doc (Schema.shiftFields k fields)
      = (scope.completeRecord fullName doc fields).map (shiftResult (Schema.shift k) k) := by
  unfold completeRecord
  rw [← define_shift]
  simp only [shift, Schema.shift, Schema.shiftRecord, Nat.add_right_comm]

end Scope

/-- Computations that go on alike after results that correspond. -/
theorem bind_map_of_comm {ε α α' β β' : Type} {x : Except ε α} {move : α → α'} {move' : β → β'}
    {next : α → Except ε β} {next' : α' → Except ε β'}
    (h : ∀ a, next' (move a) = (next a).map move') :
    (x.map move >>= next') = (x >>= next).map move' := by
  cases x with
  | error e => rfl
  | ok a => exact h a

/-- A field with every label moved. -/
def Schema.shiftField (k : Nat) (f : Field Schema) : Field Schema := ⟨f.name, f.doc, f.type.shift k⟩

namespace Outline

open Scope (shiftResult)

mutual

/-- **The first label does not matter**: a reader that starts with moved labels moves the labels of
what it reads. -/
theorem resolve_shift (k : Nat) : ∀ (o : Outline) (space : Option String) (scope : Scope),
    resolve space (scope.shift k) o
      = (resolve space scope o).map (shiftResult (Schema.shift k) k)
  | .malformed _, _, _ => by rw [resolve, resolve]; rfl
  | .reference name, space, scope => by
    rw [resolve, resolve, Scope.lookup_shift]
    exact bind_map_of_comm fun _ => rfl
  | .union branches, space, scope => by
    rw [resolve, resolve, resolveAll_shift k branches]
    exact bind_map_of_comm fun _ => rfl
  | .array items, space, scope => by
    rw [resolve, resolve, resolve_shift k items]
    exact bind_map_of_comm fun _ => rfl
  | .map values, space, scope => by
    rw [resolve, resolve, resolve_shift k values]
    exact bind_map_of_comm fun _ => rfl
  | .enum decl, space, scope => by
    rw [resolve, resolve]
    exact Scope.define_shift k (decl.fullNameIn space) (.enum (decl.fullNameIn space))
  | .fixed decl, space, scope => by
    rw [resolve, resolve]
    exact Scope.define_shift k (decl.fullNameIn space) (.fixed (decl.fullNameIn space))
  | .record decl doc fields, space, scope => by
    rw [resolve, resolve]
    -- which names are taken does not depend on labels
    simp only [Scope.isCompleted_shift]
    show (if scope.isCompleted (decl.fullNameIn space)
      || decide (decl.fullNameIn space ∈ scope.openRecords) then _ else _) = _
    by_cases hknown : (scope.isCompleted (decl.fullNameIn space)
      || decide (decl.fullNameIn space ∈ scope.openRecords)) = true
    · rw [if_pos hknown, if_pos hknown]
      rfl
    · have hbody := resolveBody_shift k fields (decl.fullNameIn space) (decl.scopeIn space)
        (scope.enter (decl.fullNameIn space))
      rw [if_neg hknown, if_neg hknown]
      show (resolveBody _ _ ((scope.enter (decl.fullNameIn space)).shift k) fields >>= _) = _
      rw [hbody]
      exact bind_map_of_comm fun body => Scope.completeRecord_shift k _ doc body.1

/-- The schemas of a list. -/
theorem resolveAll_shift (k : Nat) : ∀ (os : List Outline) (space : Option String) (scope : Scope),
    resolveAll space (scope.shift k) os
      = (resolveAll space scope os).map (shiftResult (Schema.shiftBranches k) k)
  | [], _, _ => by rw [resolveAll, resolveAll]; rfl
  | o :: rest, space, scope => by
    rw [resolveAll, resolveAll, resolve_shift k o]
    refine bind_map_of_comm fun first => ?_
    show (resolveAll space (first.2.shift k) rest >>= _) = _
    rw [resolveAll_shift k rest]
    exact bind_map_of_comm fun _ => rfl

/-- The fields of a record. -/
theorem resolveBody_shift (k : Nat) : ∀ (body : Option (List (FieldShape Outline)))
    (owner : String) (space : Option String) (scope : Scope),
    resolveBody owner space (scope.shift k) body
      = (resolveBody owner space scope body).map (shiftResult (Schema.shiftFields k) k)
  | none, _, _, _ => by rw [resolveBody, resolveBody]; rfl
  | some shapes, owner, space, scope => by
    rw [resolveBody, resolveBody, resolveFields_shift k shapes]

/-- The fields of a list. -/
theorem resolveFields_shift (k : Nat) : ∀ (shapes : List (FieldShape Outline)) (owner : String)
    (space : Option String) (scope : Scope) (seen : List String),
    resolveFields owner space (scope.shift k) seen shapes
      = (resolveFields owner space scope seen shapes).map (shiftResult (Schema.shiftFields k) k)
  | [], _, _, _, _ => by rw [resolveFields, resolveFields]; rfl
  | shape :: rest, owner, space, scope, seen => by
    rw [resolveFields, resolveFields, resolveField_shift k shape]
    refine bind_map_of_comm fun first => ?_
    obtain ⟨field, mid⟩ := first
    -- the name is no label, so both readers meet the same names
    show (if field.name ∈ seen then _ else _)
      = Except.map _ (if field.name ∈ seen then _ else _)
    by_cases hseen : field.name ∈ seen
    · rw [if_pos hseen, if_pos hseen]
      rfl
    · rw [if_neg hseen, if_neg hseen]
      show (resolveFields owner space (mid.shift k) (field.name :: seen) rest >>= _) = _
      rw [resolveFields_shift k rest]
      exact bind_map_of_comm fun _ => rfl

/-- One field. -/
theorem resolveField_shift (k : Nat) : ∀ (shape : FieldShape Outline) (owner : String)
    (space : Option String) (scope : Scope),
    resolveField owner space (scope.shift k) shape
      = (resolveField owner space scope shape).map (shiftResult (Schema.shiftField k) k)
  | .notObject, _, _, _ => by rw [resolveField, resolveField]; rfl
  | .unnamed, _, _, _ => by rw [resolveField, resolveField]; rfl
  | .untyped _, _, _, _ => by rw [resolveField, resolveField]; rfl
  | .typed ⟨name, doc, type⟩, owner, space, scope => by
    rw [resolveField, resolveField, resolve_shift k type]
    exact bind_map_of_comm fun _ => rfl

end

end Outline

/-! ## §4. Documents that agree. -/

/-- **Occurrences of records are shared alike**: two places of one list hold the same object exactly
when the two places of the other list do. -/
def SharedAlike (rs ts : List Record) : Prop :=
  rs.length = ts.length
    ∧ ∀ p ∈ rs.zip ts, ∀ q ∈ rs.zip ts, p.1.isSameObject q.1 = p.2.isSameObject q.2

namespace Schema

/-- Moving labels keeps apart what was apart. -/
theorem sharedAlike_shift (j k : Nat) (s : Schema) :
    SharedAlike (s.shift j).records (s.shift k).records := by
  rw [records_shift, records_shift]
  refine ⟨by rw [List.length_map, List.length_map], ?_⟩
  have hmoved : ∀ (i : Nat) (r t : Record),
      (shiftRecord i r).isSameObject (shiftRecord i t) = r.isSameObject t := by
    intro i r t
    rw [RecordOf.isSameObject, RecordOf.isSameObject, id_shiftRecord, id_shiftRecord,
      Bool.eq_iff_iff, beq_iff_eq, beq_iff_eq, Nat.add_right_cancel_iff]
  rw [List.zip_map']
  intro p hp q hq
  obtain ⟨r, -, rfl⟩ := List.mem_map.mp hp
  obtain ⟨t, -, rfl⟩ := List.mem_map.mp hq
  rw [hmoved, hmoved]

/-- **A document read from some label on** is the document read from the first one on, with moved
labels. -/
theorem ofJson_eq_shift (firstId : Nat) (v : Json) :
    ofJson firstId v = (ofJson 0 v).map fun p => (p.1.shift firstId, p.2 + firstId) := by
  have hstart : Scope.start firstId = (Scope.start 0).shift firstId := by
    rw [Scope.start, Scope.shift, Scope.start, Nat.zero_add]
    rfl
  rw [ofJson, ofJson, hstart, Outline.resolve_shift]
  exact bind_map_of_comm fun _ => rfl

/-- **Documents that agree are read alike**, wherever the labels of either reader start: as equal
schemas with the same pattern of shared records, or not at all for the same reason. -/
theorem ofJson_agreesOn {v w : Json} (h : v.AgreesOn Json.schemaKeys w) (firstId otherId : Nat) :
    (∃ s t next last, ofJson firstId v = .ok (s, next) ∧ ofJson otherId w = .ok (t, last)
        ∧ s.same t = true ∧ SharedAlike s.records t.records)
      ∨ ∃ e, ofJson firstId v = .error e ∧ ofJson otherId w = .error e := by
  have houtline : Outline.ofJson v = Outline.ofJson w := congrArg Json.Reading.outline h.reading_eq
  have hread : ofJson 0 v = ofJson 0 w := by rw [ofJson, ofJson, houtline]
  rw [ofJson_eq_shift firstId v, ofJson_eq_shift otherId w, hread]
  cases ofJson 0 w with
  | error e => exact Or.inr ⟨e, rfl, rfl⟩
  | ok p =>
    exact Or.inl ⟨_, _, _, _, rfl, rfl, same_shift firstId otherId p.1,
      sharedAlike_shift firstId otherId p.1⟩

/-- A line of an order, as it might be written by hand. -/
def writtenLine : Json :=
  .obj [("type", .str "record"), ("name", .str "Line"), ("fields", .arr [])]

/-- The line with its keys sorted and with an attribute that means nothing to the reader. -/
def sortedLine : Json :=
  .obj [("aliases", .arr [.str "Row"]), ("fields", .arr []), ("name", .str "Line"),
    ("type", .str "record")]

/-- An order whose line and gift are one record. -/
def orderOf (line : Json) : Json :=
  .obj [("type", .str "record"), ("name", .str "Order"), ("namespace", .str "shop"),
    ("fields", .arr [.obj [("name", .str "line"), ("type", line)],
      .obj [("name", .str "gift"), ("type", .str "Line")]])]

theorem writtenLine_agreesOn : writtenLine.AgreesOn Json.schemaKeys sortedLine := by
  refine Json.agreesOn_of_members (by decide) (List.reverse_perm _).symm ?_
  exact .cons ⟨rfl, Json.agreesOn_refl _ _⟩ (.cons ⟨rfl, Json.agreesOn_refl _ _⟩
    (.cons ⟨rfl, Json.agreesOn_refl _ _⟩ .nil))

theorem orderOf_agreesOn {v w : Json} (h : v.AgreesOn Json.schemaKeys w) :
    (orderOf v).AgreesOn Json.schemaKeys (orderOf w) := by
  have hline : Json.AgreesOn Json.schemaKeys (.obj [("name", .str "line"), ("type", v)])
      (.obj [("name", .str "line"), ("type", w)]) := by
    refine Json.agreesOn_of_members (by simp) (List.Perm.refl _) ?_
    exact .cons ⟨rfl, Json.agreesOn_refl _ _⟩ (.cons ⟨rfl, h⟩ .nil)
  refine Json.agreesOn_of_members (by simp) (List.Perm.refl _) ?_
  exact .cons ⟨rfl, Json.agreesOn_refl _ _⟩ (.cons ⟨rfl, Json.agreesOn_refl _ _⟩
    (.cons ⟨rfl, Json.agreesOn_refl _ _⟩
      (.cons ⟨rfl, .arr (.cons hline (.cons (Json.agreesOn_refl _ _) .nil))⟩ .nil)))

/-- An order around a line that was sorted, read from another label on. -/
theorem ofJson_agreesOn_sortedLine :
    (orderOf writtenLine).AgreesOn Json.schemaKeys (orderOf sortedLine)
      ∧ ((∃ s t next last, ofJson 0 (orderOf writtenLine) = .ok (s, next)
            ∧ ofJson 7 (orderOf sortedLine) = .ok (t, last)
            ∧ s.same t = true ∧ SharedAlike s.records t.records)
          ∨ ∃ e, ofJson 0 (orderOf writtenLine) = .error e
            ∧ ofJson 7 (orderOf sortedLine) = .error e) :=
  ⟨orderOf_agreesOn writtenLine_agreesOn,
    ofJson_agreesOn (orderOf_agreesOn writtenLine_agreesOn) 0 7⟩

end Schema

end AvroSwagger
