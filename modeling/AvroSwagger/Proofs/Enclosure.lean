import AvroSwagger.Proofs.NameResolution
import AvroSwagger.Proofs.Reading

/-!
# AvroSwagger.Proofs.Enclosure

**Which back-references stand inside the record they name.**

A name stays open where it is used inside its own record.  There the record is
around the name.  But a record that is complete may be used again by its name, and
with it every name that was left open in it: outside the record that was open when
it was read, such a name is exposed.

So all back-references of a document stand inside their records exactly when every
use of a name stands inside all records that the schema it comes to leaves open.

Main statements:
  * `Schema.exposes_record_iff`: a record closes its own name and no other;
  * `Outline.Resolved.strays_iff`: what was read exposes the names that stray in its events;
  * `Schema.ofJson_enclosed_iff`: when the back-references of a document stand inside their
    records;
  * `Schema.not_enclosed_archive`: a document in which one does not.
-/

namespace AvroSwagger

namespace Schema

/-! ## §1. Ways down. -/

/-- **A way down a schema to a part of it**, with the records that it leads through, outermost
first. -/
inductive Leads : Schema → List Record → Schema → Prop
  | here (s : Schema) : Leads s [] s
  | items {s t : Schema} {through : List Record} (h : Leads s through t) :
      Leads (.array s) through t
  | values {s t : Schema} {through : List Record} (h : Leads s through t) :
      Leads (.map s) through t
  | branch {b t : Schema} {branches : List Schema} {through : List Record} (hb : b ∈ branches)
      (h : Leads b through t) : Leads (.union branches) through t
  | field {r : Record} {f : Field Schema} {t : Schema} {through : List Record} (hf : f ∈ r.fields)
      (h : Leads f.type through t) : Leads (.record r) (r :: through) t

/-- **Every back-reference stands inside the record it names**, on every way to it. -/
def Enclosed (s : Schema) : Prop :=
  ∀ through fullName, s.Leads through (.named fullName) → ∃ r ∈ through, r.fullName = fullName

/-- A back-reference stands outside the record it names, on some way to it. -/
def Exposes (s : Schema) (fullName : String) : Prop :=
  ∃ through, s.Leads through (.named fullName) ∧ ∀ r ∈ through, r.fullName ≠ fullName

theorem enclosed_iff {s : Schema} : s.Enclosed ↔ ∀ fullName, ¬s.Exposes fullName := by
  constructor
  · rintro h fullName ⟨through, hleads, hno⟩
    obtain ⟨r, hr, hname⟩ := h through fullName hleads
    exact hno r hr hname
  · intro h through fullName hleads
    by_contra hno
    exact h fullName ⟨through, hleads, fun r hr hname => hno ⟨r, hr, hname⟩⟩

variable {fullName : String}

theorem exposes_array_iff {s : Schema} : (array s).Exposes fullName ↔ s.Exposes fullName := by
  constructor
  · rintro ⟨through, hleads, hno⟩
    cases hleads with
    | items h => exact ⟨through, h, hno⟩
  · rintro ⟨through, hleads, hno⟩
    exact ⟨through, .items hleads, hno⟩

theorem exposes_map_iff {s : Schema} : (map s).Exposes fullName ↔ s.Exposes fullName := by
  constructor
  · rintro ⟨through, hleads, hno⟩
    cases hleads with
    | values h => exact ⟨through, h, hno⟩
  · rintro ⟨through, hleads, hno⟩
    exact ⟨through, .values hleads, hno⟩

theorem exposes_union_iff {branches : List Schema} :
    (union branches).Exposes fullName ↔ ∃ b ∈ branches, b.Exposes fullName := by
  constructor
  · rintro ⟨through, hleads, hno⟩
    cases hleads with
    | branch hb h => exact ⟨_, hb, through, h, hno⟩
  · rintro ⟨b, hb, through, hleads, hno⟩
    exact ⟨through, .branch hb hleads, hno⟩

/-- **A record closes its own name and no other.** -/
theorem exposes_record_iff {r : Record} : (record r).Exposes fullName ↔
    r.fullName ≠ fullName ∧ ∃ f ∈ r.fields, f.type.Exposes fullName := by
  constructor
  · rintro ⟨through, hleads, hno⟩
    cases hleads with
    | field hf h =>
      refine ⟨hno r List.mem_cons_self, _, hf, _, h, fun x hx => ?_⟩
      exact hno x (List.mem_cons_of_mem _ hx)
  · rintro ⟨hname, f, hf, through, hleads, hno⟩
    refine ⟨r :: through, .field hf hleads, fun x hx => ?_⟩
    rcases List.mem_cons.mp hx with rfl | hx
    · exact hname
    · exact hno x hx

theorem not_exposes_enum {name : String} : ¬(enum name).Exposes fullName := by
  rintro ⟨through, hleads, -⟩
  cases hleads

theorem not_exposes_fixed {name : String} : ¬(fixed name).Exposes fullName := by
  rintro ⟨through, hleads, -⟩
  cases hleads

end Schema

/-! ## §2. Names that stray. -/

/-- The records that are open behind an event, innermost first. -/
def Event.openBehind (openNames : List String) : Event → List String
  | .opened fullName => fullName :: openNames
  | .closed _ _ => openNames.drop 1
  | _ => openNames

/-- The records that are open behind some events. -/
def openBehind (openNames : List String) (events : List Event) : List String :=
  events.foldl Event.openBehind openNames

/-- **A name strays in some events**: a schema that exposes it is used outside its record. -/
def Strays (fullName : String) (openNames : List String) (events : List Event) : Prop :=
  ∃ before name space t after, events = before ++ .reference name space t :: after
    ∧ t.Exposes fullName ∧ fullName ∉ openBehind openNames before

variable {fullName : String} {openNames : List String} {es : List Event}

theorem strays_reference_iff {name : String} {space : Option String} {t : Schema} :
    Strays fullName openNames (.reference name space t :: es) ↔
      (t.Exposes fullName ∧ fullName ∉ openNames) ∨ Strays fullName openNames es := by
  constructor
  · rintro ⟨before, name', space', t', after, heq, hexposes, hopen⟩
    cases before with
    | nil =>
      injection heq with hevent _
      injection hevent with _ _ ht
      exact Or.inl ⟨ht ▸ hexposes, hopen⟩
    | cons e before =>
      injection heq with hevent hrest
      rw [← hevent] at hopen
      exact Or.inr ⟨before, name', space', t', after, hrest, hexposes, hopen⟩
  · rintro (⟨hexposes, hopen⟩ | ⟨before, name', space', t', after, rfl, hexposes, hopen⟩)
    · exact ⟨[], name, space, t, es, rfl, hexposes, hopen⟩
    · exact ⟨.reference name space t :: before, name', space', t', after, rfl, hexposes, hopen⟩

/-- An event that uses no name changes only which records are open. -/
theorem strays_cons_iff {e : Event} (he : ∀ name space t, e ≠ .reference name space t) :
    Strays fullName openNames (e :: es) ↔ Strays fullName (e.openBehind openNames) es := by
  constructor
  · rintro ⟨before, name, space, t, after, heq, hexposes, hopen⟩
    cases before with
    | nil =>
      injection heq with hevent _
      exact absurd hevent (he name space t)
    | cons e' before =>
      injection heq with hevent hrest
      rw [← hevent] at hopen
      exact ⟨before, name, space, t, after, hrest, hexposes, hopen⟩
  · rintro ⟨before, name, space, t, after, rfl, hexposes, hopen⟩
    exact ⟨e :: before, name, space, t, after, rfl, hexposes, hopen⟩

namespace Outline

open Scope Schema

/-- **What was read exposes the names that stray in its events**, unless they are open around
it. -/
theorem Resolved.strays_iff {space : Option String} {scope after : Scope} {os : List Outline}
    {ss : List Schema} (h : Resolved space scope os ss after) (fullName : String)
    (openNames : List String) (back : List Event) :
    Strays fullName openNames (logAll space os ss ++ back) ↔
      ((∃ s ∈ ss, s.Exposes fullName) ∧ fullName ∉ openNames)
        ∨ Strays fullName openNames back := by
  -- the events behind are a part of the statement, so that a list can be worked off from its front
  induction h generalizing openNames back with
  | nil => simp [logAll]
  | reference _ _ ih =>
    rw [logAll, log, List.append_assoc, List.singleton_append, strays_reference_iff, ih]
    simp only [List.exists_mem_cons_iff, or_and_right, or_assoc]
  | union _ _ ihb ih =>
    rw [logAll, log, List.append_assoc, ihb, ih]
    simp only [List.exists_mem_cons_iff, exposes_union_iff, or_and_right, or_assoc]
  | array _ _ ihi ih =>
    simp only [logAll, List.append_nil] at ihi
    rw [logAll, log, List.append_assoc, ihi, ih]
    simp only [List.exists_mem_cons_iff, exposes_array_iff, List.not_mem_nil, false_and,
      exists_false, or_false, or_and_right, or_assoc]
  | map _ _ ihv ih =>
    simp only [logAll, List.append_nil] at ihv
    rw [logAll, log, List.append_assoc, ihv, ih]
    simp only [List.exists_mem_cons_iff, exposes_map_iff, List.not_mem_nil, false_and,
      exists_false, or_false, or_and_right, or_assoc]
  | enum hd _ ih =>
    obtain ⟨-, rfl, -⟩ := define_eq_ok_iff.mp hd
    rw [logAll, log, List.append_assoc, List.singleton_append, strays_cons_iff (by simp), ih]
    simp only [List.exists_mem_cons_iff, not_exposes_enum, false_or, Event.openBehind]
  | fixed hd _ ih =>
    obtain ⟨-, rfl, -⟩ := define_eq_ok_iff.mp hd
    rw [logAll, log, List.append_assoc, List.singleton_append, strays_cons_iff (by simp), ih]
    simp only [List.exists_mem_cons_iff, not_exposes_fixed, false_or, Event.openBehind]
  | @record space scope mid last after decl doc fs fields s os ss _ _ _ _ hr _ ihb ih =>
    obtain ⟨-, rfl, -⟩ := completeRecord_eq_ok_iff.mp hr
    rw [logAll_record_cons, List.cons_append, List.append_assoc, List.cons_append,
      strays_cons_iff (by simp), ihb, strays_cons_iff (by simp)]
    -- the record is open around its fields, which is how it closes its own name
    have hrecord : ((∃ t ∈ fields.map Field.type, t.Exposes fullName)
          ∧ fullName ∉ Event.openBehind openNames (.opened (decl.fullNameIn space)))
        ↔ (Schema.record ⟨mid.nextId, decl.fullNameIn space, doc, fields⟩).Exposes fullName
          ∧ fullName ∉ openNames := by
      rw [exposes_record_iff, Event.openBehind, List.mem_cons, not_or]
      constructor
      · rintro ⟨⟨t, ht, hexposes⟩, hne, hopen⟩
        obtain ⟨f, hf, rfl⟩ := List.mem_map.mp ht
        exact ⟨⟨Ne.symm hne, f, hf, hexposes⟩, hopen⟩
      · rintro ⟨⟨hne, f, hf, hexposes⟩, hopen⟩
        exact ⟨⟨f.type, List.mem_map_of_mem hf, hexposes⟩, Ne.symm hne, hopen⟩
    rw [hrecord, show Event.openBehind _ (.closed _ _) = openNames from rfl, ih]
    simp only [List.exists_mem_cons_iff, or_and_right, or_assoc]

end Outline

/-! ## §3. What is open at a place. -/

namespace Scope

variable {before after : Scope} {front back : List Event} {e : Event} {firstId : Nat}

/-- A step opens and closes the records that its event opens and closes. -/
theorem Step.openRecords_eq (h : Step before e after) :
    after.openRecords = e.openBehind before.openRecords := by
  cases h with
  | reference => rfl
  | opened => rfl
  | closed _ h =>
    obtain ⟨-, -, rfl⟩ := completeRecord_eq_ok_iff.mp h
    rfl
  | defined h =>
    obtain ⟨-, -, rfl⟩ := define_eq_ok_iff.mp h
    rfl

theorem Runs.openRecords_eq (h : Runs before es after) :
    after.openRecords = AvroSwagger.openBehind before.openRecords es := by
  induction h with
  | nil => rfl
  | cons step _ ih => rw [ih, step.openRecords_eq]; rfl

/-- **The records that are open at a place of a document**: no name is begun twice, so an open one
is not complete as something else. -/
theorem Runs.mem_openBehind_iff (h : Runs (start firstId) (front ++ e :: back) after)
    (hclosed : after.openRecords = []) :
    fullName ∈ AvroSwagger.openBehind [] front ↔ OpenIn front fullName := by
  obtain ⟨mid, hfront, -⟩ := h.exists_of_append
  have hopen : mid.openRecords = AvroSwagger.openBehind [] front := hfront.openRecords_eq
  rw [← hopen]
  refine ⟨fun hin => ?_, hfront.mem_openRecords⟩
  have hperm := hfront.knownNames_perm
  have hnodup := h.nodup_definedNames List.nodup_nil hclosed
  rw [List.filterMap_append, definedNames_append, List.append_assoc] at hnodup
  have hknown : mid.knownNames.Nodup := by
    rw [hperm.nodup_iff]
    show (_ ++ []).Nodup
    rw [List.append_nil]
    exact (List.nodup_append.mp hnodup).1
  constructor
  · have hbegun := hperm.subset (List.mem_append_right _ hin)
    simpa [knownNames, start] using hbegun
  · intro s hs
    have hfound := hfront.find?_completed_eq_some_iff.mpr hs
    have hkey : fullName ∈ mid.completed.keys :=
      OrderedMap.find?_isSome_iff.mp (by rw [hfound]; rfl)
    exact (List.nodup_append.mp hknown).2.2 fullName hkey fullName hin rfl

end Scope

/-! ## §4. Documents. -/

namespace Schema

/-- **When the back-references of a document stand inside their records**: exactly when every use
of a name stands inside all records that the schema it comes to leaves open.  In any case the
record that a back-reference names stands somewhere in the schema. -/
theorem ofJson_enclosed_iff {firstId next : Nat} {v : Json} {s : Schema}
    (h : ofJson firstId v = .ok (s, next)) :
    ∃ o, Spells v o ∧ (o.log none s).filterMap Event.mark? = o.marks none
      ∧ (s.Enclosed ↔ ∀ before name space t after,
          o.log none s = before ++ .reference name space t :: after →
            ∀ fullName, t.Exposes fullName → OpenIn before fullName)
      ∧ ∀ fullName, (named fullName).IsPart s →
          ∃ r : Record, (record r).IsPart s ∧ r.fullName = fullName := by
  obtain ⟨after, -, hread⟩ := ofJson_eq_ok_iff.mp h
  have hmarks := hread.filterMap_mark?_logAll
  obtain ⟨hrun, hclosed⟩ := hread.runs
  have hstrays := fun fullName => hread.strays_iff fullName [] []
  simp only [Outline.marksAll, Outline.logAll, List.append_nil] at hmarks hrun hstrays
  refine ⟨_, Outline.WellFormed.spells v (hread.wellFormed _ List.mem_cons_self), hmarks, ?_,
    fun fullName hpart => exists_record_of_named_isPart h hpart⟩
  have hexposes : ∀ fullName, s.Exposes fullName
      ↔ Strays fullName [] ((Outline.ofJson v).log none s) := by
    intro fullName
    rw [hstrays fullName]
    simp [Strays]
  rw [enclosed_iff]
  constructor
  · intro hnone before name space t back hlog fullName ht
    rw [hlog] at hrun
    rw [← hrun.mem_openBehind_iff hclosed]
    by_contra hopen
    exact hnone fullName ((hexposes fullName).mpr ⟨before, name, space, t, back, hlog, ht, hopen⟩)
  · rintro hall fullName hs
    obtain ⟨before, name, space, t, back, hlog, ht, hopen⟩ := (hexposes fullName).mp hs
    have hin := hall before name space t back hlog fullName ht
    rw [hlog] at hrun
    exact hopen ((hrun.mem_openBehind_iff hclosed).mpr hin)

/-- A file, which knows its folder. -/
def fileSource : Json :=
  .obj [("type", .str "record"), ("name", .str "File"),
    ("fields", .arr [.obj [("name", .str "owner"), ("type", .str "Folder")]])]

/-- A folder, in which the file is defined. -/
def folderSource : Json :=
  .obj [("type", .str "record"), ("name", .str "Folder"),
    ("fields", .arr [.obj [("name", .str "first"), ("type", fileSource)]])]

/-- An archive of a folder, and of a cover that uses the file by its name. -/
def archiveSource : Json :=
  .obj [("type", .str "record"), ("name", .str "Archive"),
    ("fields", .arr [.obj [("name", .str "root"), ("type", folderSource)],
      .obj [("name", .str "cover"), ("type", .str "File")]])]

/-- The outline of the file. -/
def fileOutline : Outline :=
  .record ⟨"File", none⟩ none (some [.typed ⟨"owner", none, .reference "Folder"⟩])

/-- The outline of the folder. -/
def folderOutline : Outline :=
  .record ⟨"Folder", none⟩ none (some [.typed ⟨"first", none, fileOutline⟩])

/-- The outline of the archive. -/
def archiveOutline : Outline :=
  .record ⟨"Archive", none⟩ none
    (some [.typed ⟨"root", none, folderOutline⟩, .typed ⟨"cover", none, .reference "File"⟩])

/-- The file that is read: its owner is a back-reference. -/
def fileRecord : Record :=
  ⟨0, "File", none, [⟨"owner", none, .named "Folder"⟩]⟩

/-- The archive that is read: the same file stands inside the folder and outside it. -/
def archiveRecord : Record :=
  ⟨2, "Archive", none,
    [⟨"root", none, .record ⟨1, "Folder", none, [⟨"first", none, .record fileRecord⟩]⟩⟩,
      ⟨"cover", none, .record fileRecord⟩]⟩

theorem spells_archiveSource : Spells archiveSource archiveOutline := by
  have howner : SpellsFields [.obj [("name", .str "owner"), ("type", .str "Folder")]]
      [⟨"owner", none, .reference "Folder"⟩] := .cons rfl rfl rfl (.name "Folder") .nil
  have hfile : Spells fileSource fileOutline :=
    .record rfl (.inl rfl) ⟨rfl, by decide, rfl⟩ rfl rfl howner (by decide)
  have hfirst : SpellsFields [.obj [("name", .str "first"), ("type", fileSource)]]
      [⟨"first", none, fileOutline⟩] := .cons rfl rfl rfl hfile .nil
  have hfolder : Spells folderSource folderOutline :=
    .record rfl (.inl rfl) ⟨rfl, by decide, rfl⟩ rfl rfl hfirst (by decide)
  have hroot : SpellsFields [.obj [("name", .str "root"), ("type", folderSource)],
        .obj [("name", .str "cover"), ("type", .str "File")]]
      [⟨"root", none, folderOutline⟩, ⟨"cover", none, .reference "File"⟩] :=
    .cons rfl rfl rfl hfolder (.cons rfl rfl rfl (.name "File") .nil)
  exact .record rfl (.inl rfl) ⟨rfl, by decide, rfl⟩ rfl rfl hroot (by decide)

theorem ofJson_archiveSource : ofJson 0 archiveSource = .ok (.record archiveRecord, 3) := by
  have houtline : Outline.ofJson archiveSource = archiveOutline :=
    (Outline.spells_iff_wellFormed.mp spells_archiveSource).1
  have hnames : ∀ name ∈ ["Archive", "Folder", "File"],
      (⟨name, none⟩ : Declaration).fullNameIn none = name
        ∧ (⟨name, none⟩ : Declaration).scopeIn none = none ∧ qualify name none = name := by decide
  simp only [List.forall_mem_cons, List.not_mem_nil, false_implies, implies_true, and_true]
    at hnames
  obtain ⟨⟨harchive, harchive', -⟩, ⟨hfolder, hfolder', hfolderName⟩,
    ⟨hfile, hfile', hfileName⟩⟩ := hnames
  rw [ofJson, houtline]
  simp [archiveOutline, folderOutline, fileOutline, archiveRecord, fileRecord, Outline.resolve,
    Outline.resolveBody, Outline.resolveFields, Outline.resolveField, Scope.start, Scope.lookup,
    Scope.enter, Scope.define, Scope.completeRecord, Scope.isCompleted, harchive, harchive',
    hfolder, hfolder', hfolderName, hfile, hfile', hfileName, primitive?, OrderedMap.find?, bind,
    Except.bind]

/-- The back-references of the archive are judged by the uses of its names. -/
theorem ofJson_enclosed_archive :
    ofJson 0 archiveSource = .ok (.record archiveRecord, 3)
      ∧ ∃ o, Spells archiveSource o
        ∧ (o.log none (.record archiveRecord)).filterMap Event.mark? = o.marks none
        ∧ ((record archiveRecord).Enclosed ↔ ∀ before name space t after,
            o.log none (.record archiveRecord) = before ++ .reference name space t :: after →
              ∀ fullName, t.Exposes fullName → OpenIn before fullName)
        ∧ ∀ fullName, (named fullName).IsPart (.record archiveRecord) →
            ∃ r : Record, (record r).IsPart (.record archiveRecord) ∧ r.fullName = fullName :=
  ⟨ofJson_archiveSource, ofJson_enclosed_iff ofJson_archiveSource⟩

/-- **A back-reference can stand outside the record it names**: a document is accepted in which a
way leads to a name, and through no record of that name. -/
theorem not_enclosed_archive :
    ofJson 0 archiveSource = .ok (.record archiveRecord, 3)
      ∧ ¬(record archiveRecord).Enclosed := by
  refine ⟨ofJson_archiveSource, fun henclosed => ?_⟩
  have hleads : (record archiveRecord).Leads [archiveRecord, fileRecord] (.named "Folder") :=
    .field (List.mem_cons_of_mem _ List.mem_cons_self) (.field List.mem_cons_self (.here _))
  obtain ⟨r, hr, hname⟩ := henclosed _ _ hleads
  simp only [List.mem_cons, List.not_mem_nil, or_false] at hr
  rcases hr with rfl | rfl <;> simp [archiveRecord, fileRecord] at hname

end Schema

end AvroSwagger
