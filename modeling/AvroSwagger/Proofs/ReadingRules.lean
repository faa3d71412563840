import AvroSwagger.Schema.Resolve
import AvroSwagger.Proofs.OrderedMap
import Mathlib.Data.List.Forall2

/-!
# AvroSwagger.Proofs.ReadingRules

**Reading as a relation: one rule for each kind of outline.**

The reader works through outlines, lists of outlines, bodies, fields and single
fields, and may fail in each.  The rules speak of lists of outlines only and of
reading that succeeds, so that a statement about what was read is proved by one
induction.

Main statements:
  * `Outline.resolveFields_eq_ok_iff`: fields are read when they have distinct names and types
    that are read as a list;
  * `Outline.resolveAll_eq_ok_iff`, `Outline.resolve_eq_ok_iff`, `Schema.ofJson_eq_ok_iff`: the
    reader reads what the rules do.
-/

namespace AvroSwagger

/-- A computation in two steps gives a value when both steps do. -/
theorem bind_eq_ok_iff {ε α β : Type} {x : Except ε α} {f : α → Except ε β} {b : β} :
    x >>= f = .ok b ↔ ∃ a, x = .ok a ∧ f a = .ok b := by
  cases x with
  | error e => simp [bind, Except.bind]
  | ok a => simp [bind, Except.bind]

/-- A computation that is seen to succeed gives a value. -/
theorem exists_eq_ok_of_isOk {ε α : Type} {x : Except ε α} (h : x.isOk = true) :
    ∃ a, x = .ok a := by
  cases x with
  | error e => exact absurd h (by simp [Except.isOk, Except.toBool])
  | ok a => exact ⟨a, rfl⟩

/-! ## §1. Scopes. -/

namespace Scope

variable {scope after : Scope}

/-- The full names of the definitions that are complete or begun. -/
def knownNames (scope : Scope) : List String := scope.completed.keys ++ scope.openRecords

/-- A full name is known when its definition is complete or open. -/
theorem mem_knownNames_iff {fullName : String} :
    fullName ∈ scope.knownNames ↔
      scope.isCompleted fullName = true ∨ fullName ∈ scope.openRecords := by
  rw [knownNames, List.mem_append, isCompleted, OrderedMap.find?_isSome_iff]

theorem not_mem_knownNames_iff {fullName : String} :
    fullName ∉ scope.knownNames ↔
      scope.isCompleted fullName = false ∧ fullName ∉ scope.openRecords := by
  rw [mem_knownNames_iff, not_or, Bool.not_eq_true]

/-- A definition is added under a full name that is not complete yet. -/
theorem define_eq_ok_iff {fullName : String} {schema s : Schema} :
    scope.define fullName schema = .ok (s, after) ↔
      fullName ∉ scope.completed.keys ∧ s = schema
        ∧ after = { scope with completed := (fullName, schema) :: scope.completed } := by
  have hkeys : scope.isCompleted fullName = true ↔ fullName ∈ scope.completed.keys :=
    OrderedMap.find?_isSome_iff
  unfold define
  split
  next h => simp [hkeys.mp h]
  next h =>
    rw [hkeys] at h
    simp only [Except.ok.injEq, Prod.mk.injEq]
    constructor
    · rintro ⟨hs, ha⟩
      exact ⟨h, hs.symm, ha.symm⟩
    · rintro ⟨-, hs, ha⟩
      exact ⟨hs.symm, ha.symm⟩

/-- A record is complete from its end on and no longer open. -/
theorem completeRecord_eq_ok_iff {fullName : String} {doc : Option String}
    {fields : List (Field Schema)} {s : Schema} :
    scope.completeRecord fullName doc fields = .ok (s, after) ↔
      fullName ∉ scope.completed.keys ∧ s = .record ⟨scope.nextId, fullName, doc, fields⟩
        ∧ after = ⟨(fullName, s) :: scope.completed, scope.openRecords.drop 1,
          scope.nextId + 1⟩ := by
  rw [completeRecord, define_eq_ok_iff]
  constructor
  · rintro ⟨hnew, rfl, hafter⟩
    exact ⟨hnew, rfl, hafter⟩
  · rintro ⟨hnew, rfl, hafter⟩
    exact ⟨hnew, rfl, hafter⟩

/-- A name that is looked up is a primitive, or it is complete or open as qualified or as
written. -/
theorem lookup_cases {name : String} {space : Option String} {s : Schema}
    (h : scope.lookup name space = .ok s) :
    Schema.primitive? name = some s
      ∨ ∃ fullName, (fullName = qualify name space ∨ fullName = name)
        ∧ (scope.completed.find? fullName = some s
          ∨ fullName ∈ scope.openRecords ∧ s = .named fullName) := by
  unfold lookup at h
  split at h
  next primitive hprimitive =>
    injection h with h
    exact Or.inl (h ▸ hprimitive)
  next =>
    simp only at h
    split at h
    next found hfound =>
      injection h with h
      rw [h, Option.or_eq_some_iff] at hfound
      rcases hfound with hfound | ⟨-, hfound⟩
      · exact Or.inr ⟨_, Or.inl rfl, Or.inl hfound⟩
      · exact Or.inr ⟨_, Or.inr rfl, Or.inl hfound⟩
    next =>
      split at h
      next hopen =>
        injection h with h
        exact Or.inr ⟨_, Or.inl rfl, Or.inr ⟨hopen, h.symm⟩⟩
      next =>
        split at h
        next hopen =>
          injection h with h
          exact Or.inr ⟨_, Or.inr rfl, Or.inr ⟨hopen, h.symm⟩⟩
        next => exact absurd h (by simp)

end Scope

namespace Outline

/-! ## §2. The rules. -/

/-- Fields that were read keep their names and their documentation. -/
def SameHeads (fs : List (Field Outline)) (fields : List (Field Schema)) : Prop :=
  List.Forall₂ (fun f g => g.name = f.name ∧ g.doc = f.doc) fs fields

/-- **A list of outlines is read**: the schemas of the outlines and the scope behind them.  The
rules work on lists because a container hands its parts on as one. -/
inductive Resolved : Option String → Scope → List Outline → List Schema → Scope → Prop
  | nil {space : Option String} {scope : Scope} : Resolved space scope [] [] scope
  | reference {space : Option String} {scope after : Scope} {name : String} {s : Schema}
      {os : List Outline} {ss : List Schema} (h : scope.lookup name space = .ok s)
      (rest : Resolved space scope os ss after) :
      Resolved space scope (.reference name :: os) (s :: ss) after
  | union {space : Option String} {scope mid after : Scope} {branches os : List Outline}
      {schemas ss : List Schema} (h : Resolved space scope branches schemas mid)
      (rest : Resolved space mid os ss after) :
      Resolved space scope (.union branches :: os) (.union schemas :: ss) after
  | array {space : Option String} {scope mid after : Scope} {items : Outline} {s : Schema}
      {os : List Outline} {ss : List Schema} (h : Resolved space scope [items] [s] mid)
      (rest : Resolved space mid os ss after) :
      Resolved space scope (.array items :: os) (.array s :: ss) after
  | map {space : Option String} {scope mid after : Scope} {values : Outline} {s : Schema}
      {os : List Outline} {ss : List Schema} (h : Resolved space scope [values] [s] mid)
      (rest : Resolved space mid os ss after) :
      Resolved space scope (.map values :: os) (.map s :: ss) after
  | enum {space : Option String} {scope mid after : Scope} {decl : Declaration} {s : Schema}
      {os : List Outline} {ss : List Schema}
      (h : scope.define (decl.fullNameIn space) (.enum (decl.fullNameIn space)) = .ok (s, mid))
      (rest : Resolved space mid os ss after) :
      Resolved space scope (.enum decl :: os) (s :: ss) after
  | fixed {space : Option String} {scope mid after : Scope} {decl : Declaration} {s : Schema}
      {os : List Outline} {ss : List Schema}
      (h : scope.define (decl.fullNameIn space) (.fixed (decl.fullNameIn space)) = .ok (s, mid))
      (rest : Resolved space mid os ss after) :
      Resolved space scope (.fixed decl :: os) (s :: ss) after
  | record {space : Option String} {scope mid last after : Scope} {decl : Declaration}
      {doc : Option String} {fs : List (Field Outline)} {fields : List (Field Schema)} {s : Schema}
      {os : List Outline} {ss : List Schema}
      (fresh : decl.fullNameIn space ∉ scope.knownNames) (distinct : (fs.map Field.name).Nodup)
      (heads : SameHeads fs fields)
      (body : Resolved (decl.scopeIn space) (scope.enter (decl.fullNameIn space))
        (fs.map Field.type) (fields.map Field.type) mid)
      (h : mid.completeRecord (decl.fullNameIn space) doc fields = .ok (s, last))
      (rest : Resolved space last os ss after) :
      Resolved space scope (.record decl doc (some (fs.map .typed)) :: os) (s :: ss) after

variable {space : Option String} {scope mid after : Scope}

theorem Resolved.append {front back : List Outline} {ss ts : List Schema}
    (h : Resolved space scope front ss mid) (h' : Resolved space mid back ts after) :
    Resolved space scope (front ++ back) (ss ++ ts) after := by
  induction h with
  | nil => exact h'
  | reference hl _ ih => exact .reference hl (ih h')
  | union hb _ _ ih => exact .union hb (ih h')
  | array hi _ _ ih => exact .array hi (ih h')
  | map hv _ _ ih => exact .map hv (ih h')
  | enum hd _ ih => exact .enum hd (ih h')
  | fixed hd _ ih => exact .fixed hd (ih h')
  | record fresh distinct heads body hr _ _ ih =>
    exact .record fresh distinct heads body hr (ih h')

/-- Each outline gives one schema. -/
theorem Resolved.length_eq {os : List Outline} {ss : List Schema}
    (h : Resolved space scope os ss after) : os.length = ss.length := by
  induction h with
  | nil => rfl
  | reference _ _ ih => exact congrArg (· + 1) ih
  | union _ _ _ ih => exact congrArg (· + 1) ih
  | array _ _ _ ih => exact congrArg (· + 1) ih
  | map _ _ _ ih => exact congrArg (· + 1) ih
  | enum _ _ ih => exact congrArg (· + 1) ih
  | fixed _ _ ih => exact congrArg (· + 1) ih
  | record _ _ _ _ _ _ _ ih => exact congrArg (· + 1) ih

/-- Fields and as many schemas make fields of schemas. -/
theorem exists_sameHeads {fs : List (Field Outline)} {ts : List Schema}
    (h : fs.length = ts.length) :
    ∃ fields : List (Field Schema), SameHeads fs fields ∧ fields.map Field.type = ts := by
  induction fs generalizing ts with
  | nil =>
    obtain rfl : ts = [] := List.eq_nil_of_length_eq_zero h.symm
    exact ⟨[], .nil, rfl⟩
  | cons f fs ih =>
    cases ts with
    | nil => exact absurd h (by simp)
    | cons t ts =>
      obtain ⟨fields, hheads, htypes⟩ := ih (Nat.succ.inj h)
      exact ⟨⟨f.name, f.doc, t⟩ :: fields, .cons ⟨rfl, rfl⟩ hheads, by rw [← htypes]; rfl⟩

/-! ## §3. Lists and fields. -/

theorem resolveAll_cons_eq_ok_iff {o : Outline} {rest : List Outline} {ss : List Schema} :
    resolveAll space scope (o :: rest) = .ok (ss, after) ↔
      ∃ s mid ts, o.resolve space scope = .ok (s, mid)
        ∧ resolveAll space mid rest = .ok (ts, after) ∧ ss = s :: ts := by
  rw [resolveAll, bind_eq_ok_iff]
  constructor
  · rintro ⟨⟨s, mid⟩, ho, h⟩
    rw [bind_eq_ok_iff] at h
    obtain ⟨⟨ts, last⟩, hrest, h⟩ := h
    injection h with h
    injection h with hss hlast
    exact ⟨s, mid, ts, ho, hlast ▸ hrest, hss.symm⟩
  · rintro ⟨s, mid, ts, ho, hrest, rfl⟩
    exact ⟨(s, mid), ho, bind_eq_ok_iff.mpr ⟨(ts, after), hrest, rfl⟩⟩

/-- A field is read when it has a name and a type, and its type is. -/
theorem resolveField_eq_ok_iff {owner : String} {shape : FieldShape Outline}
    {field : Field Schema} :
    resolveField owner space scope shape = .ok (field, after) ↔
      ∃ f : Field Outline, shape = .typed f ∧ field.name = f.name ∧ field.doc = f.doc
        ∧ f.type.resolve space scope = .ok (field.type, after) := by
  cases shape with
  | notObject => simp [resolveField]
  | unnamed => simp [resolveField]
  | untyped name => simp [resolveField]
  | typed f =>
    obtain ⟨name, doc, type⟩ := f
    rw [resolveField, bind_eq_ok_iff]
    constructor
    · rintro ⟨⟨s, last⟩, htype, h⟩
      injection h with h
      injection h with hfield hlast
      rw [← hfield, ← hlast]
      exact ⟨_, rfl, rfl, rfl, htype⟩
    · rintro ⟨f, hf, hname, hdoc, htype⟩
      injection hf with hf
      rw [← hf] at hname hdoc htype
      refine ⟨(field.type, after), htype, ?_⟩
      obtain ⟨fname, fdoc, ftype⟩ := field
      rw [show fname = name from hname, show fdoc = doc from hdoc]

/-- Fields are read when all have names and types, the names are distinct, and the types are read
as a list. -/
theorem resolveFields_eq_ok_iff {owner : String} {shapes : List (FieldShape Outline)}
    {seen : List String} {fields : List (Field Schema)} :
    resolveFields owner space scope seen shapes = .ok (fields, after) ↔
      ∃ fs : List (Field Outline), shapes = fs.map .typed ∧ (fs.map Field.name).Nodup
        ∧ (∀ f ∈ fs, f.name ∉ seen) ∧ SameHeads fs fields
        ∧ resolveAll space scope (fs.map Field.type) = .ok (fields.map Field.type, after) := by
  induction shapes generalizing scope seen fields with
  | nil =>
    rw [resolveFields]
    constructor
    · intro h
      injection h with h
      injection h with hfields hscope
      rw [← hfields, ← hscope]
      exact ⟨[], rfl, List.nodup_nil, by simp, .nil, rfl⟩
    · rintro ⟨fs, hshapes, -, -, hheads, hall⟩
      obtain rfl : fs = [] := by simpa using hshapes.symm
      cases hheads
      rw [List.map_nil, resolveAll] at hall
      injection hall with hall
      injection hall with _ hscope
      rw [hscope]
  | cons shape rest ih =>
    rw [resolveFields, bind_eq_ok_iff]
    constructor
    · rintro ⟨⟨field, mid⟩, hfield, h⟩
      simp only at h
      split at h
      next => exact absurd h (by simp)
      next hseen =>
        rw [bind_eq_ok_iff] at h
        obtain ⟨⟨others, last⟩, hrest, h⟩ := h
        injection h with h
        injection h with hfields hlast
        rw [show last = after from hlast] at hrest
        -- the first field is typed, and the induction gives the others with new names
        obtain ⟨f, hshape, hname, hdoc, htype⟩ := resolveField_eq_ok_iff.mp hfield
        obtain ⟨fs, hshapes, hnodup, hnew, hheads, hall⟩ := ih.mp hrest
        refine ⟨f :: fs, by rw [hshape, hshapes, List.map_cons], ?_, ?_, ?_, ?_⟩
        · -- the names behind the field are none of those seen, its own included
          refine List.nodup_cons.mpr ⟨fun hin => ?_, hnodup⟩
          obtain ⟨g, hg, hgname⟩ := List.mem_map.mp hin
          exact hnew g hg (by simp [hgname, hname])
        · intro g hg
          rcases List.mem_cons.mp hg with rfl | hg
          · exact hname ▸ hseen
          · exact fun hin => hnew g hg (List.mem_cons_of_mem _ hin)
        · rw [← hfields]
          exact .cons ⟨hname, hdoc⟩ hheads
        · rw [← hfields]
          exact resolveAll_cons_eq_ok_iff.mpr ⟨_, _, _, htype, hall, rfl⟩
    · rintro ⟨fs, hshapes, hnodup, hnew, hheads, hall⟩
      cases hheads with
      | nil => exact absurd hshapes (by simp)
      | @cons f field fs others hhead hheads =>
        rw [List.map_cons] at hshapes
        injection hshapes with hshape hrest
        obtain ⟨s, mid, ts, htype, hothers, hss⟩ := resolveAll_cons_eq_ok_iff.mp hall
        injection hss with hs hts
        rw [List.map_cons, List.nodup_cons] at hnodup
        refine ⟨(field, mid), resolveField_eq_ok_iff.mpr
          ⟨f, hshape, hhead.1, hhead.2, hs ▸ htype⟩, ?_⟩
        have hunseen : field.name ∉ seen := hhead.1 ▸ hnew f List.mem_cons_self
        have hlater : resolveFields owner space mid (field.name :: seen) rest
            = .ok (others, after) := by
          refine ih.mpr ⟨fs, hrest, hnodup.2, fun g hg hin => ?_, hheads, hts ▸ hothers⟩
          rcases List.mem_cons.mp hin with heq | hin
          · exact hnodup.1 (List.mem_map.mpr ⟨g, hg, heq.trans hhead.1⟩)
          · exact hnew g (List.mem_cons_of_mem _ hg) hin
        simp only [if_neg hunseen]
        exact bind_eq_ok_iff.mpr ⟨(others, after), hlater, rfl⟩

theorem sizeOf_map_type_le (fs : List (Field Outline)) :
    sizeOf (fs.map Field.type) ≤ sizeOf (fs.map FieldShape.typed) := by
  induction fs with
  | nil => exact Nat.le_refl _
  | cons f fs ih =>
    have hsize : sizeOf f.type < sizeOf f := by
      cases f
      simp only [Field.mk.sizeOf_spec]
      omega
    simp only [List.map_cons, List.cons.sizeOf_spec, FieldShape.typed.sizeOf_spec]
    omega

theorem resolveAll_singleton_eq_ok_iff {o : Outline} {s : Schema} :
    resolveAll space scope [o] = .ok ([s], after) ↔ o.resolve space scope = .ok (s, after) := by
  rw [resolveAll_cons_eq_ok_iff]
  constructor
  · rintro ⟨t, mid, ts, ho, hnone, heq⟩
    rw [resolveAll] at hnone
    injection hnone with hnone
    injection hnone with _ hmid
    injection heq with hs _
    rw [hs, ← hmid]
    exact ho
  · exact fun ho => ⟨s, after, [], ho, by rw [resolveAll], rfl⟩

/-! ## §4. The reader and the rules. -/

mutual

/-- What the reader reads of an outline is read by the rules. -/
theorem resolved_of_resolve : ∀ (o : Outline) {space : Option String} {scope after : Scope}
    {s : Schema}, o.resolve space scope = .ok (s, after) → Resolved space scope [o] [s] after
  | .malformed fault, space, scope, after, s, h => by
    rw [resolve] at h
    exact absurd h (by simp)
  | .reference name, space, scope, after, s, h => by
    rw [resolve, bind_eq_ok_iff] at h
    obtain ⟨found, hfound, h⟩ := h
    injection h with h
    injection h with hs hscope
    rw [← hs, ← hscope]
    exact .reference hfound .nil
  | .union branches, space, scope, after, s, h => by
    rw [resolve, bind_eq_ok_iff] at h
    obtain ⟨⟨schemas, last⟩, hbranches, h⟩ := h
    injection h with h
    injection h with hs hscope
    rw [← hs, ← hscope]
    exact .union (resolved_of_resolveAll branches hbranches) .nil
  | .array items, space, scope, after, s, h => by
    rw [resolve, bind_eq_ok_iff] at h
    obtain ⟨⟨t, last⟩, hitems, h⟩ := h
    injection h with h
    injection h with hs hscope
    rw [← hs, ← hscope]
    exact .array (resolved_of_resolve items hitems) .nil
  | .map values, space, scope, after, s, h => by
    rw [resolve, bind_eq_ok_iff] at h
    obtain ⟨⟨t, last⟩, hvalues, h⟩ := h
    injection h with h
    injection h with hs hscope
    rw [← hs, ← hscope]
    exact .map (resolved_of_resolve values hvalues) .nil
  | .enum decl, space, scope, after, s, h => by
    rw [resolve] at h
    exact .enum h .nil
  | .fixed decl, space, scope, after, s, h => by
    rw [resolve] at h
    exact .fixed h .nil
  | .record decl doc none, space, scope, after, s, h => by
    rw [resolve] at h
    split at h
    next => exact absurd h (by simp)
    next => rw [resolveBody, bind_eq_ok_iff] at h; simp at h
  | .record decl doc (some shapes), space, scope, after, s, h => by
    rw [resolve] at h
    split at h
    next => exact absurd h (by simp)
    next hfresh =>
      rw [resolveBody, bind_eq_ok_iff] at h
      obtain ⟨⟨fields, last⟩, hbody, h⟩ := h
      obtain ⟨fs, hshapes, hnodup, -, hheads, hall⟩ := resolveFields_eq_ok_iff.mp hbody
      -- the types of the fields are a part of the record, which the recursion needs
      have hsize : sizeOf (fs.map Field.type) ≤ sizeOf shapes := hshapes ▸ sizeOf_map_type_le fs
      have hinner := resolved_of_resolveAll (fs.map Field.type) hall
      rw [hshapes]
      refine .record (Scope.not_mem_knownNames_iff.mpr ?_) hnodup hheads hinner h .nil
      simpa using hfresh
termination_by o => sizeOf o

/-- What the reader reads of a list is read by the rules. -/
theorem resolved_of_resolveAll : ∀ (os : List Outline) {space : Option String}
    {scope after : Scope} {ss : List Schema},
      resolveAll space scope os = .ok (ss, after) → Resolved space scope os ss after
  | [], space, scope, after, ss, h => by
    rw [resolveAll] at h
    injection h with h
    injection h with hss hscope
    rw [← hss, ← hscope]
    exact .nil
  | o :: rest, space, scope, after, ss, h => by
    obtain ⟨s, mid, ts, ho, hrest, rfl⟩ := resolveAll_cons_eq_ok_iff.mp h
    exact (resolved_of_resolve o ho).append (resolved_of_resolveAll rest hrest)
termination_by os => sizeOf os

end

/-- **Reading as a relation**: the reader reads what the rules do. -/
theorem resolveAll_eq_ok_iff {os : List Outline} {ss : List Schema} :
    resolveAll space scope os = .ok (ss, after) ↔ Resolved space scope os ss after := by
  refine ⟨resolved_of_resolveAll os, fun h => ?_⟩
  induction h with
  | nil => rw [resolveAll]
  | reference hl _ ih =>
    refine resolveAll_cons_eq_ok_iff.mpr ⟨_, _, _, ?_, ih, rfl⟩
    rw [resolve]
    exact bind_eq_ok_iff.mpr ⟨_, hl, rfl⟩
  | union _ _ ihb ih =>
    refine resolveAll_cons_eq_ok_iff.mpr ⟨_, _, _, ?_, ih, rfl⟩
    rw [resolve]
    exact bind_eq_ok_iff.mpr ⟨_, ihb, rfl⟩
  | array _ _ ihi ih =>
    refine resolveAll_cons_eq_ok_iff.mpr ⟨_, _, _, ?_, ih, rfl⟩
    rw [resolve]
    exact bind_eq_ok_iff.mpr ⟨_, resolveAll_singleton_eq_ok_iff.mp ihi, rfl⟩
  | map _ _ ihv ih =>
    refine resolveAll_cons_eq_ok_iff.mpr ⟨_, _, _, ?_, ih, rfl⟩
    rw [resolve]
    exact bind_eq_ok_iff.mpr ⟨_, resolveAll_singleton_eq_ok_iff.mp ihv, rfl⟩
  | enum hd _ ih =>
    refine resolveAll_cons_eq_ok_iff.mpr ⟨_, _, _, ?_, ih, rfl⟩
    rw [resolve]
    exact hd
  | fixed hd _ ih =>
    refine resolveAll_cons_eq_ok_iff.mpr ⟨_, _, _, ?_, ih, rfl⟩
    rw [resolve]
    exact hd
  | @record space scope mid _ _ decl _ fs fields _ _ _ fresh distinct heads _ hr _ ihb ih =>
    refine resolveAll_cons_eq_ok_iff.mpr ⟨_, _, _, ?_, ih, rfl⟩
    have hbody : resolveBody (decl.fullNameIn space) (decl.scopeIn space)
        (scope.enter (decl.fullNameIn space)) (some (fs.map .typed)) = .ok (fields, mid) := by
      rw [resolveBody]
      exact resolveFields_eq_ok_iff.mpr ⟨fs, rfl, distinct, by simp, heads, ihb⟩
    rw [resolve]
    simp only
    rw [if_neg (by simpa using Scope.not_mem_knownNames_iff.mp fresh), bind_eq_ok_iff]
    exact ⟨_, hbody, hr⟩

/-- Reading one outline. -/
theorem resolve_eq_ok_iff {o : Outline} {s : Schema} :
    o.resolve space scope = .ok (s, after) ↔ Resolved space scope [o] [s] after :=
  resolveAll_singleton_eq_ok_iff.symm.trans resolveAll_eq_ok_iff

end Outline

/-! ## §5. Documents. -/

namespace Schema

/-- Reading a document is reading its outline where nothing is known. -/
theorem ofJson_eq_ok_iff {firstId next : Nat} {v : Json} {s : Schema} :
    ofJson firstId v = .ok (s, next) ↔
      ∃ after : Scope, after.nextId = next
        ∧ Outline.Resolved none (Scope.start firstId) [Outline.ofJson v] [s] after := by
  rw [ofJson, bind_eq_ok_iff]
  constructor
  · rintro ⟨⟨t, after⟩, hread, h⟩
    injection h with h
    injection h with ht hnext
    rw [← ht]
    exact ⟨after, hnext, Outline.resolve_eq_ok_iff.mp hread⟩
  · rintro ⟨after, rfl, h⟩
    exact ⟨(s, after), Outline.resolve_eq_ok_iff.mpr h, rfl⟩

end Schema

end AvroSwagger
