import AvroSwagger.Proofs.Writing
import AvroSwagger.Publication.Publish
import AvroSwagger.Yaml.Library
import Mathlib

/-!
# AvroSwagger.Proofs.Publishing

**A publication happens as a whole or not at all.**

Loading reads files and changes none, and nothing is written before the text of the
document is there.  The one write is the last step, so whatever is read was read from
the tree as it was before, even from the file that is written.  None of this depends on
how the library of YAML reads or writes.

Main statements:
  * `loadManifest_readsOnly`: loading changes nothing;
  * `run_publish_cases`, `run_publish_error`, `run_publish_unchanged`: how a publication ends;
  * `publish_allOrNothing`: what is there after a publication.
-/

namespace AvroSwagger

open AvroSwagger.Files

/-! ## §1. Loading. -/

theorem loadSchema_readsOnly (directory : String) (firstId : Nat) (source : RouteSource) :
    ReadsOnly (loadSchema FileTree.access directory firstId source) := by
  unfold loadSchema
  cases source with
  | inline v => exact ReadsOnly.pure _
  | file name =>
    refine ReadsOnly.bind (readText_readsOnly _) ?_
    intro result
    split <;> exact ReadsOnly.pure _

theorem loadRoutes_readsOnly (directory : String) (sources : List (String × RouteSource))
    (firstId : Nat) : ReadsOnly (loadRoutes FileTree.access directory firstId sources) := by
  induction sources generalizing firstId with
  | nil => exact ReadsOnly.pure _
  | cons entry rest ih =>
    refine ReadsOnly.bind (loadSchema_readsOnly directory firstId entry.2) ?_
    intro result
    split
    next => exact ReadsOnly.pure _
    next schema nextId =>
      refine ReadsOnly.bind (ih nextId) ?_
      intro routes
      split <;> exact ReadsOnly.pure _

/-- **Loading changes nothing.** -/
theorem loadManifest_readsOnly (yaml : YamlLibrary) (manifest : String) :
    ReadsOnly (loadManifest yaml FileTree.access manifest) := by
  unfold loadManifest
  refine ReadsOnly.bind (readText_readsOnly manifest) ?_
  intro result
  split
  next => exact ReadsOnly.pure _
  next text =>
    dsimp only
    split
    next => exact ReadsOnly.pure _
    next parsed =>
      refine ReadsOnly.bind (loadRoutes_readsOnly _ _ _) ?_
      intro routes
      split <;> exact ReadsOnly.pure _

/-! ## §2. What is published. -/

/-- The document that is published, from the tree as it is. -/
def documentIn (yaml : YamlLibrary) (manifest : String) (policy : CollisionPolicy)
    (tree : FileTree) : Except PublicationError Json := do
  let loaded ← ((loadManifest yaml FileTree.access manifest).run tree).1
  (generateDocument loaded.template loaded.routes policy).mapError .generation

/-- The text that is published, from the tree as it is. -/
def textIn (yaml : YamlLibrary) (manifest : String) (output : Option String)
    (policy : CollisionPolicy) (tree : FileTree) : Except PublicationError String := do
  let document ← documentIn yaml manifest policy tree
  match render? yaml (outputFormat output) document with
  | none => .error .noText
  | some text => .ok text

variable {yaml : YamlLibrary} {manifest : String} {output : Option String}
  {policy : CollisionPolicy} {tree : FileTree}

theorem documentIn_of_load {e : PublicationError}
    (h : ((loadManifest yaml FileTree.access manifest).run tree).1 = .error e) :
    documentIn yaml manifest policy tree = .error e := by
  unfold documentIn
  rw [h]
  rfl

theorem documentIn_of_generate {loaded : LoadedManifest} {e : GenerationError}
    (hload : ((loadManifest yaml FileTree.access manifest).run tree).1 = .ok loaded)
    (h : generateDocument loaded.template loaded.routes policy = .error e) :
    documentIn yaml manifest policy tree = .error (.generation e) := by
  unfold documentIn
  rw [hload]
  show (generateDocument loaded.template loaded.routes policy).mapError _ = _
  rw [h]
  rfl

/-- There is a document when all is loaded and the document is generated. -/
theorem documentIn_eq_ok_iff {document : Json} :
    documentIn yaml manifest policy tree = .ok document ↔
      ∃ loaded, ((loadManifest yaml FileTree.access manifest).run tree).1 = .ok loaded
        ∧ generateDocument loaded.template loaded.routes policy = .ok document := by
  constructor
  · intro h
    obtain ⟨loaded, hload, h⟩ := bind_eq_ok_iff.mp h
    refine ⟨loaded, hload, ?_⟩
    cases hgenerate : generateDocument loaded.template loaded.routes policy with
    | error e =>
      rw [hgenerate] at h
      cases h
    | ok generated =>
      rw [hgenerate] at h
      cases h
      rfl
  · intro h
    obtain ⟨loaded, hload, hgenerate⟩ := h
    exact bind_eq_ok_iff.mpr ⟨loaded, hload, by rw [hgenerate]; rfl⟩

theorem textIn_of_documentIn {e : PublicationError}
    (h : documentIn yaml manifest policy tree = .error e) :
    textIn yaml manifest output policy tree = .error e := by
  unfold textIn
  rw [h]
  rfl

/-- There is a text when there is a document and the document is rendered. -/
theorem textIn_eq_ok_iff {text : String} :
    textIn yaml manifest output policy tree = .ok text ↔
      ∃ document, documentIn yaml manifest policy tree = .ok document
        ∧ render? yaml (outputFormat output) document = some text := by
  unfold textIn
  rw [bind_eq_ok_iff]
  refine exists_congr fun document => and_congr_right fun _ => ?_
  cases render? yaml (outputFormat output) document with
  | none => simp
  | some rendered => simp

/-! ## §3. Publications. -/

theorem run_documentOf (yaml : YamlLibrary) (manifest : String) (policy : CollisionPolicy)
    (tree : FileTree) :
    (documentOf yaml FileTree.access manifest policy).run tree
      = (documentIn yaml manifest policy tree, tree) := by
  unfold documentOf documentIn
  rw [StateT.run_bind, (loadManifest_readsOnly yaml manifest).run_eq tree]
  cases ((loadManifest yaml FileTree.access manifest).run tree).1 with
  | error e => rfl
  | ok loaded => rfl

/-- **A publication, step by step**: the text comes from the tree as it was, and writing it is
the last step. -/
theorem run_publish (yaml : YamlLibrary) (manifest : String) (output : Option String)
    (policy : CollisionPolicy) (tree : FileTree) :
    (publish yaml FileTree.access manifest output policy).run tree =
      match textIn yaml manifest output policy tree, output with
      | .error e, _ => (.error e, tree)
      | .ok text, none => (.ok (some text), tree)
      | .ok text, some path =>
        match (FileTree.access.writeBelow path text.toUTF8).run tree with
        | (.error e, after) => (.error (.output e), after)
        | (.ok _, after) => (.ok none, after) := by
  unfold publish textIn
  rw [StateT.run_bind, run_documentOf]
  cases documentIn yaml manifest policy tree with
  | error e => rfl
  | ok document =>
    dsimp only [bind, Except.bind]
    cases render? yaml (outputFormat output) document with
    | none => rfl
    | some text =>
      cases output with
      | none => rfl
      | some path =>
        show (FileTree.access.writeBelow path text.toUTF8 >>= _).run tree = _
        rw [StateT.run_bind]
        dsimp only
        generalize (FileTree.access.writeBelow path text.toUTF8).run tree = written
        obtain ⟨result, after⟩ := written
        cases result <;> rfl

/-- **How a publication to a file ends**: without a text and with the tree as it was, with the
text in the file, or with an error of the output. -/
theorem run_publish_cases (yaml : YamlLibrary) (manifest path : String) (policy : CollisionPolicy)
    (tree : FileTree) :
    (∃ e, textIn yaml manifest (some path) policy tree = .error e
        ∧ (publish yaml FileTree.access manifest (some path) policy).run tree = (.error e, tree))
      ∨ (∃ text after, textIn yaml manifest (some path) policy tree = .ok text
        ∧ (publish yaml FileTree.access manifest (some path) policy).run tree = (.ok none, after)
        ∧ Written path text.toUTF8 tree after)
      ∨ ∃ text e after, textIn yaml manifest (some path) policy tree = .ok text
        ∧ (publish yaml FileTree.access manifest (some path) policy).run tree
          = (.error (.output e), after)
        ∧ AddsDirectories (IsAbove · path) tree after := by
  rw [run_publish]
  cases textIn yaml manifest (some path) policy tree with
  | error e => exact .inl ⟨e, rfl, rfl⟩
  | ok text =>
    dsimp only
    obtain ⟨after, hrun, hwritten⟩ | ⟨e, after, hrun, hadds⟩ :=
      run_writeBelow_cases path text.toUTF8 tree
    · rw [hrun]
      exact .inr (.inl ⟨text, after, rfl, rfl, hwritten⟩)
    · rw [hrun]
      exact .inr (.inr ⟨text, e, after, rfl, rfl, hadds⟩)

/-- **A publication that fails** adds directories above its output at most. -/
theorem run_publish_error {path : String} {after : FileTree} {e : PublicationError}
    (h : (publish yaml FileTree.access manifest (some path) policy).run tree = (.error e, after)) :
    AddsDirectories (IsAbove · path) tree after := by
  obtain ⟨cause, -, hrun⟩ | ⟨text, changed, -, hrun, -⟩ | ⟨text, cause, changed, -, hrun, hadds⟩ :=
    run_publish_cases yaml manifest path policy tree
  · cases hrun.symm.trans h
    exact .refl tree
  · cases hrun.symm.trans h
  · cases hrun.symm.trans h
    exact hadds

/-- Only a failure of the output comes after the tree has changed. -/
theorem run_publish_unchanged {after : FileTree} {e : PublicationError}
    (h : (publish yaml FileTree.access manifest output policy).run tree = (.error e, after))
    (hcause : ∀ cause, e ≠ .output cause) : after = tree := by
  rw [run_publish] at h
  cases htext : textIn yaml manifest output policy tree with
  | error cause =>
    rw [htext] at h
    cases h
    rfl
  | ok text =>
    rw [htext] at h
    cases output with
    | none => cases h
    | some path =>
      dsimp only at h
      split at h
      · cases h
        exact absurd rfl (hcause _)
      · cases h

/-- What is rendered for a file depends on its extension alone. -/
theorem render?_outputFormat (yaml : YamlLibrary) (path : String) (document : Json) :
    render? yaml (outputFormat (some path)) document
      = if extension path = "yaml" ∨ extension path = "yml"
        then yaml.text? document else some document.pretty := by
  show render? yaml (.ofPath path) document = _
  unfold DocumentFormat.ofPath
  split <;> rfl

/-- **All or nothing**, with any library of YAML.  If the manifest or a schema cannot be loaded,
or the document not be generated, a publication ends with that error and the tree is as it was; so
is it with every error that is not about the output file.  If it succeeds with an output path, the
tree differs by the output file and by missing directories above it, and the file holds the
rendering of the document that is generated from the tree as it was before. -/
theorem publish_allOrNothing (yaml : YamlLibrary) (tree : FileTree) (manifest : String)
    (policy : CollisionPolicy) :
    (∀ output e, ((loadManifest yaml FileTree.access manifest).run tree).1 = .error e →
        (publish yaml FileTree.access manifest output policy).run tree = (.error e, tree))
      ∧ (∀ output loaded e,
          ((loadManifest yaml FileTree.access manifest).run tree).1 = .ok loaded →
          generateDocument loaded.template loaded.routes policy = .error e →
          (publish yaml FileTree.access manifest output policy).run tree
            = (.error (.generation e), tree))
      ∧ (∀ output e after,
          (publish yaml FileTree.access manifest output policy).run tree = (.error e, after) →
          (∀ cause, e ≠ .output cause) → after = tree)
      ∧ ∀ path result after,
          (publish yaml FileTree.access manifest (some path) policy).run tree
            = (.ok result, after) →
          ∃ loaded document text,
            ((loadManifest yaml FileTree.access manifest).run tree).1 = .ok loaded
              ∧ generateDocument loaded.template loaded.routes policy = .ok document
              ∧ (if extension path = "yaml" ∨ extension path = "yml"
                  then yaml.text? document else some document.pretty) = some text
              ∧ Written path text.toUTF8 tree after ∧ after.read path = .ok text.toUTF8 := by
  refine ⟨?_, ?_, fun output e after => run_publish_unchanged, ?_⟩
  · intro output e hload
    rw [run_publish, textIn_of_documentIn (documentIn_of_load hload)]
  · intro output loaded e hload hgenerate
    rw [run_publish, textIn_of_documentIn (documentIn_of_generate hload hgenerate)]
  · intro path result after hrun
    obtain ⟨e, -, hend⟩ | ⟨text, changed, htext, hend, hwritten⟩ | ⟨text, e, changed, -, hend, -⟩ :=
      run_publish_cases yaml manifest path policy tree
    · cases hend.symm.trans hrun
    · cases hend.symm.trans hrun
      obtain ⟨document, hdocument, hrender⟩ := textIn_eq_ok_iff.mp htext
      obtain ⟨loaded, hload, hgenerate⟩ := documentIn_eq_ok_iff.mp hdocument
      rw [render?_outputFormat] at hrender
      exact ⟨loaded, document, text, hload, hgenerate, hrender, hwritten, hwritten.read_eq⟩
    · cases hend.symm.trans hrun

/-- The text of a record without fields. -/
def pingSource : String :=
  "\x7b\"type\":\"record\",\"name\":\"Ping\",\"fields\":[]\x7d"

/-- The record of that text. -/
def pingRecord : Record := ⟨0, "Ping", none, []⟩

/-- A manifest in YAML that binds a route to a file with a record, one in JSON that binds a route to
a union, which is no record, and the file. -/
def twoManifests : FileTree :=
  ⟨.directory [("m.yaml", .file "routes:\n  Ping: p\n".toUTF8),
    ("n", .file "\x7b\"routes\":\x7b\"a\":[]\x7d\x7d".toUTF8),
    ("p", .file pingSource.toUTF8)], []⟩

/-- What the first manifest binds. -/
def pingRoutes : RouteMap := [("Ping", .record pingRecord)]

theorem run_loadRoutes_ping :
    (loadRoutes FileTree.access ((parent? "m.yaml").getD ".") 0 [("Ping", .file "p")]).run
      twoManifests = (.ok pingRoutes, twoManifests) := by
  have hread : (FileTree.access.readText (join ((parent? "m.yaml").getD ".") "p")).run twoManifests
      = (.ok pingSource, twoManifests) := rfl
  have hschema : Schema.ofText 0 pingSource = .ok (.record pingRecord, 1) := by cbv
  have hload : (loadSchema FileTree.access ((parent? "m.yaml").getD ".") 0 (.file "p")).run
      twoManifests = (.ok (.record pingRecord, 1), twoManifests) := by
    unfold loadSchema
    dsimp only
    rw [StateT.run_bind, hread]
    dsimp only [bind]
    rw [hschema]
    rfl
  unfold loadRoutes
  rw [StateT.run_bind, hload]
  rfl

theorem run_loadManifest_ping :
    ((loadManifest Yaml.library FileTree.access "m.yaml").run twoManifests).1
      = .ok ⟨.obj [], pingRoutes⟩ := by
  have hread : (FileTree.access.readText "m.yaml").run twoManifests
      = (.ok "routes:\n  Ping: p\n", twoManifests) := rfl
  have hform : DocumentFormat.ofPath "m.yaml" = .yaml := by decide
  have hmanifest : Manifest.parse? Yaml.library .yaml "routes:\n  Ping: p\n"
      = some ⟨.empty, [("Ping", .file "p")]⟩ := by cbv
  unfold loadManifest
  rw [StateT.run_bind, hread]
  dsimp only [bind]
  rw [hform, hmanifest]
  show (StateT.run (loadRoutes FileTree.access _ 0 _ >>= _) twoManifests).1 = _
  rw [StateT.run_bind, run_loadRoutes_ping]
  rfl

/-- The first manifest is overwritten by the document that it describes. -/
theorem exists_run_publish_sameFile : ∃ after,
    (publish Yaml.library FileTree.access "m.yaml" (some "m.yaml") .reject).run twoManifests
      = (.ok none, after) := by
  have hok : (generateDocument (.obj []) pingRoutes .reject).isOk = true := by decide +kernel
  obtain ⟨document, hgenerate⟩ := exists_eq_ok_of_isOk hok
  have htext : textIn Yaml.library "m.yaml" (some "m.yaml") .reject twoManifests
      = .ok (Yaml.document document) :=
    textIn_eq_ok_iff.mpr ⟨document, documentIn_eq_ok_iff.mpr ⟨_, run_loadManifest_ping, hgenerate⟩,
      rfl⟩
  -- the write succeeds whatever the content is
  have hwrite : ∀ content, ∃ after,
      (FileTree.access.writeBelow "m.yaml" content).run twoManifests = (.ok (), after) := by
    intro content
    exact ⟨_, rfl⟩
  obtain ⟨after, hafter⟩ := hwrite (Yaml.document document).toUTF8
  refine ⟨after, ?_⟩
  rw [run_publish, htext]
  dsimp only
  rw [hafter]

theorem publish_allOrNothing_sameFile :
    ∃ loaded misfit after,
      ((loadManifest Yaml.library FileTree.access "absent").run twoManifests).1
          = .error (.manifestUnreadable "absent" .notFound)
        ∧ (publish Yaml.library FileTree.access "absent" (some "m.yaml") .reject).run twoManifests
          = (.error (.manifestUnreadable "absent" .notFound), twoManifests)
        ∧ ((loadManifest Yaml.library FileTree.access "n").run twoManifests).1 = .ok loaded
        ∧ generateDocument loaded.template loaded.routes .reject = .error misfit
        ∧ (publish Yaml.library FileTree.access "n" (some "m.yaml") .reject).run twoManifests
          = (.error (.generation misfit), twoManifests)
        ∧ (publish Yaml.library FileTree.access "m.yaml" (some "m.yaml") .reject).run twoManifests
          = (.ok none, after)
        ∧ ∃ loaded document text,
          ((loadManifest Yaml.library FileTree.access "m.yaml").run twoManifests).1 = .ok loaded
            ∧ generateDocument loaded.template loaded.routes .reject = .ok document
            ∧ (if extension "m.yaml" = "yaml" ∨ extension "m.yaml" = "yml"
                then Yaml.library.text? document else some document.pretty) = some text
            ∧ Written "m.yaml" text.toUTF8 twoManifests after
            ∧ after.read "m.yaml" = .ok text.toUTF8 := by
  have habsent : ((loadManifest Yaml.library FileTree.access "absent").run twoManifests).1
      = .error (.manifestUnreadable "absent" .notFound) := rfl
  have hunion : ((loadManifest Yaml.library FileTree.access "n").run twoManifests).1
      = .ok ⟨.obj [], [("a", .union [])]⟩ := by cbv
  obtain ⟨misfit, hmisfit⟩ : ∃ e,
      generateDocument (.obj []) [("a", .union [])] .reject = .error e := ⟨_, rfl⟩
  obtain ⟨after, hafter⟩ := exists_run_publish_sameFile
  exact ⟨_, misfit, after, habsent,
    (publish_allOrNothing Yaml.library twoManifests "absent" .reject).1 _ _ habsent, hunion,
    hmisfit,
    (publish_allOrNothing Yaml.library twoManifests "n" .reject).2.1 _ _ _ hunion hmisfit, hafter,
    (publish_allOrNothing Yaml.library twoManifests "m.yaml" .reject).2.2.2 _ _ _ hafter⟩

end AvroSwagger
