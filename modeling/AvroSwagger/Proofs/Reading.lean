import AvroSwagger.Proofs.ReadingRules
import AvroSwagger.Proofs.Parts

/-!
# AvroSwagger.Proofs.Reading

**Every name left open in a schema is the name of a record in the schema.**

A name stays open where a record is used inside its own definition.  While a
document is read, each open name in what was read so far is the name of a record
that is still being read or of one that is complete; what is complete is part of
what was read.  At the end no record is being read.

Main statements:
  * `Outline.Resolved.reads`: what reading outlines does to the scope;
  * `Schema.exists_record_of_named_isPart`: the record behind an open name.
-/

namespace AvroSwagger

namespace Scope

/-! ## §1. Scopes. -/

/-- An open name is that of a record being read or of a complete record. -/
def Knows (scope : Scope) (fullName : String) : Prop :=
  fullName ∈ scope.openRecords
    ∨ ∃ r : Record, (fullName, Schema.record r) ∈ scope.completed ∧ r.fullName = fullName

/-- The scope knows every open name in its complete definitions. -/
def Closed (scope : Scope) : Prop :=
  ∀ kv ∈ scope.completed, ∀ fullName, (Schema.named fullName).IsPart kv.2 → scope.Knows fullName

/-- **What reading does to a scope**, `parts` being the parts of what was read: the records being
read are the same, complete definitions stay, new ones are parts of what was read, and the open
names in it are known. -/
structure Reads (before after : Scope) (parts : Schema → Prop) : Prop where
  openRecords_eq : after.openRecords = before.openRecords
  kept : ∀ kv ∈ before.completed, kv ∈ after.completed
  added : ∀ kv ∈ after.completed, kv ∈ before.completed ∨ parts kv.2
  known : ∀ fullName, parts (.named fullName) → after.Knows fullName
  closed : after.Closed

variable {scope before mid after : Scope} {P Q : Schema → Prop}

/-- What is known stays known. -/
theorem Reads.knows (h : Reads before after P) {fullName : String} (hk : before.Knows fullName) :
    after.Knows fullName := by
  rcases hk with hopen | ⟨r, hr, hname⟩
  · exact Or.inl (h.openRecords_eq ▸ hopen)
  · exact Or.inr ⟨r, h.kept _ hr, hname⟩

/-- Reading nothing new. -/
theorem Closed.reads (hc : scope.Closed) (hk : ∀ fullName, P (.named fullName) →
    scope.Knows fullName) : Reads scope scope P where
  openRecords_eq := rfl
  kept := fun _ h => h
  added := fun _ h => Or.inl h
  known := hk
  closed := hc

/-- Reading one part after another. -/
theorem Reads.trans (h : Reads before mid P) (h' : Reads mid after Q) :
    Reads before after fun t => P t ∨ Q t where
  openRecords_eq := h'.openRecords_eq.trans h.openRecords_eq
  kept := fun kv hkv => h'.kept kv (h.kept kv hkv)
  added := by
    intro kv hkv
    rcases h'.added kv hkv with hmid | hnew
    · exact (h.added kv hmid).imp id Or.inl
    · exact Or.inr (Or.inr hnew)
  known := by
    intro fullName hp
    rcases hp with hp | hq
    · exact h'.knows (h.known fullName hp)
    · exact h'.known fullName hq
  closed := h'.closed

/-- Reading what a container is made of is reading the container. -/
theorem Reads.wrap (h : Reads before after P) (hsub : ∀ t, P t → Q t)
    (hnamed : ∀ fullName, Q (.named fullName) → P (.named fullName)) : Reads before after Q where
  openRecords_eq := h.openRecords_eq
  kept := h.kept
  added := fun kv hkv => (h.added kv hkv).imp id (hsub kv.2)
  known := fun fullName hq => h.known fullName (hnamed fullName hq)
  closed := h.closed

/-! ## §2. Single names. -/

/-- A name that is looked up is a primitive, complete, or being read. -/
theorem reads_of_lookup {name : String} {space : Option String} {s : Schema} (hc : scope.Closed)
    (h : scope.lookup name space = .ok s) : Reads scope scope (·.IsPart s) := by
  refine hc.reads (fun open' hpart => ?_)
  -- primitives have no parts, complete definitions are closed, and open names are known
  rcases lookup_cases h with hprimitive | ⟨fullName, -, hfound | ⟨hopen, rfl⟩⟩
  · unfold Schema.primitive? at hprimitive
    split at hprimitive <;> cases hprimitive <;> cases hpart
  · exact hc _ (OrderedMap.mem_of_find?_eq_some hfound) open' hpart
  · cases hpart
    exact Or.inl hopen

/-- A definition without parts of its own. -/
theorem reads_of_define {fullName : String} {schema s : Schema} (hc : scope.Closed)
    (hleaf : ∀ open', ¬(Schema.named open').IsPart schema)
    (h : scope.define fullName schema = .ok (s, after)) : Reads scope after (·.IsPart s) := by
  obtain ⟨-, rfl, rfl⟩ := define_eq_ok_iff.mp h
  constructor
  · rfl
  · exact fun kv hkv => List.mem_cons_of_mem _ hkv
  · intro kv hkv
    rcases List.mem_cons.mp hkv with rfl | hkv
    · exact Or.inr (.self _)
    · exact Or.inl hkv
  · exact fun open' hpart => absurd hpart (hleaf open')
  · intro kv hkv open' hpart
    rcases List.mem_cons.mp hkv with rfl | hkv
    · exact absurd hpart (hleaf open')
    · exact (hc kv hkv open' hpart).imp id fun ⟨r, hr, hn⟩ => ⟨r, List.mem_cons_of_mem _ hr, hn⟩

/-- A record is complete behind its fields; its name is known from then on as a definition. -/
theorem reads_of_completeRecord {fullName : String} {doc : Option String}
    {fields : List (Field Schema)} {s : Schema}
    (hbody : Reads (scope.enter fullName) mid fun t => ∃ f ∈ fields, t.IsPart f.type)
    (h : mid.completeRecord fullName doc fields = .ok (s, after)) :
    Reads scope after (·.IsPart s) := by
  obtain ⟨-, rfl, rfl⟩ := define_eq_ok_iff.mp h
  have hopen : mid.openRecords = fullName :: scope.openRecords := hbody.openRecords_eq
  have hdrop : mid.openRecords.drop 1 = scope.openRecords := by
    rw [hopen]
    rfl
  -- the record was open in front of its end and is complete behind it
  have hknows : ∀ open', mid.Knows open' → Knows
      ⟨(fullName, .record ⟨mid.nextId, fullName, doc, fields⟩) :: mid.completed,
        mid.openRecords.drop 1, mid.nextId + 1⟩ open' := by
    intro open' hk
    rcases hk with hin | ⟨r, hr, hname⟩
    · rw [hopen, List.mem_cons] at hin
      rcases hin with rfl | hin
      · exact Or.inr ⟨_, List.mem_cons_self, rfl⟩
      · exact Or.inl (hdrop ▸ hin)
    · exact Or.inr ⟨r, List.mem_cons_of_mem _ hr, hname⟩
  have hknown : ∀ open', (Schema.named open').IsPart
      (.record ⟨mid.nextId, fullName, doc, fields⟩) → mid.Knows open' := by
    intro open' hpart
    rcases Schema.isPart_record_iff.mp hpart with heq | hfield
    · exact absurd heq (by simp)
    · exact hbody.known open' hfield
  constructor
  · exact hdrop
  · exact fun kv hkv => List.mem_cons_of_mem _ (hbody.kept kv hkv)
  · intro kv hkv
    rcases List.mem_cons.mp hkv with rfl | hkv
    · exact Or.inr (.self _)
    · exact (hbody.added kv hkv).imp id fun hf => Schema.isPart_record_iff.mpr (Or.inr hf)
  · exact fun open' hpart => hknows open' (hknown open' hpart)
  · intro kv hkv open' hpart
    rcases List.mem_cons.mp hkv with rfl | hkv
    · exact hknows open' (hknown open' hpart)
    · exact hknows open' (hbody.closed kv hkv open' hpart)

/-- A record that is being read is known. -/
theorem Closed.enter (hc : scope.Closed) (fullName : String) : (scope.enter fullName).Closed := by
  intro kv hkv open' hpart
  exact (hc kv hkv open' hpart).imp (List.mem_cons_of_mem _) id

end Scope

/-! ## §3. Outlines. -/

namespace Scope

variable {before mid after : Scope} {s : Schema} {ss : List Schema}

/-- Reading one outline after another. -/
theorem Reads.cons (h : Reads before mid (·.IsPart s))
    (h' : Reads mid after fun t => ∃ u ∈ ss, t.IsPart u) :
    Reads before after fun t => ∃ u ∈ s :: ss, t.IsPart u := by
  apply (h.trans h').wrap
  · intro t ht
    simpa using ht
  · intro fullName hpart
    simpa using hpart

theorem Reads.union (h : Reads before after fun t => ∃ u ∈ ss, t.IsPart u) :
    Reads before after (·.IsPart (.union ss)) := by
  apply h.wrap
  · rintro t ⟨b, hb, ht⟩
    exact .branch hb ht
  · intro fullName hpart
    cases hpart with
    | branch hb ht => exact ⟨_, hb, ht⟩

theorem Reads.array (h : Reads before after fun t => ∃ u ∈ [s], t.IsPart u) :
    Reads before after (·.IsPart (.array s)) := by
  apply h.wrap
  · rintro t ⟨u, hu, ht⟩
    rw [List.mem_singleton.mp hu] at ht
    exact .items ht
  · intro fullName hpart
    cases hpart with
    | items ht => exact ⟨s, List.mem_singleton_self s, ht⟩

theorem Reads.map (h : Reads before after fun t => ∃ u ∈ [s], t.IsPart u) :
    Reads before after (·.IsPart (.map s)) := by
  apply h.wrap
  · rintro t ⟨u, hu, ht⟩
    rw [List.mem_singleton.mp hu] at ht
    exact .values ht
  · intro fullName hpart
    cases hpart with
    | values ht => exact ⟨s, List.mem_singleton_self s, ht⟩

/-- Reading the types of fields is reading the fields. -/
theorem Reads.fields {fields : List (Field Schema)}
    (h : Reads before after fun t => ∃ u ∈ fields.map Field.type, t.IsPart u) :
    Reads before after fun t => ∃ f ∈ fields, t.IsPart f.type := by
  apply h.wrap
  · intro t ht
    simpa using ht
  · intro fullName hpart
    simpa using hpart

end Scope

namespace Outline

open Scope

/-- **What reading outlines does to the scope.** -/
theorem Resolved.reads {space : Option String} {scope after : Scope} {os : List Outline}
    {ss : List Schema} (h : Resolved space scope os ss after) (hc : scope.Closed) :
    Reads scope after fun t => ∃ s ∈ ss, t.IsPart s := by
  -- the scope behind each outline is closed again, so the next one can be read in it
  induction h with
  | nil => exact hc.reads fun fullName hpart => by simp at hpart
  | reference hl _ ih =>
    have hfirst := reads_of_lookup hc hl
    exact hfirst.cons (ih hfirst.closed)
  | union _ _ ihb ih =>
    have hfirst := (ihb hc).union
    exact hfirst.cons (ih hfirst.closed)
  | array _ _ ihi ih =>
    have hfirst := (ihi hc).array
    exact hfirst.cons (ih hfirst.closed)
  | map _ _ ihv ih =>
    have hfirst := (ihv hc).map
    exact hfirst.cons (ih hfirst.closed)
  | enum hd _ ih =>
    have hfirst := reads_of_define hc (fun _ hpart => by cases hpart) hd
    exact hfirst.cons (ih hfirst.closed)
  | fixed hd _ ih =>
    have hfirst := reads_of_define hc (fun _ hpart => by cases hpart) hd
    exact hfirst.cons (ih hfirst.closed)
  | record _ _ _ _ hr _ ihb ih =>
    have hfirst := reads_of_completeRecord (ihb (hc.enter _)).fields hr
    exact hfirst.cons (ih hfirst.closed)

end Outline

/-! ## §4. Documents. -/

namespace Schema

/-- **The record behind an open name** stands in the same schema. -/
theorem exists_record_of_named_isPart {firstId next : Nat} {v : Json} {s : Schema}
    (h : ofJson firstId v = .ok (s, next)) {fullName : String}
    (hpart : (named fullName).IsPart s) :
    ∃ r : Record, (record r).IsPart s ∧ r.fullName = fullName := by
  obtain ⟨scope, -, hread⟩ := ofJson_eq_ok_iff.mp h
  have hstart : (Scope.start firstId).Closed := by
    intro kv hkv
    simp [Scope.start] at hkv
  -- no record is open at the end, so the name is that of a complete one, which is a part
  have hreads := hread.reads hstart
  rcases hreads.known fullName ⟨s, List.mem_singleton_self s, hpart⟩ with hopen | ⟨r, hr, hname⟩
  · rw [hreads.openRecords_eq] at hopen
    simp [Scope.start] at hopen
  · rcases hreads.added _ hr with hold | ⟨u, hu, hnew⟩
    · simp [Scope.start] at hold
    · rw [List.mem_singleton.mp hu] at hnew
      exact ⟨r, hnew, hname⟩

end Schema

end AvroSwagger
