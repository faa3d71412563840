import AvroSwagger.Files.Access
import AvroSwagger.Proofs.FileTrees
import Mathlib.Logic.Relation

/-!
# AvroSwagger.Proofs.Writing

**What a program does to a file tree when it reads text and when it writes a file.**

Reading changes nothing.  Writing a file makes the directories above it first, one
above the other, and then writes once.  However that ends, nothing that was there is
gone, and what is new is the file and directories that its path goes through.

A property of all runs of a program is kept by putting programs one after the other,
so it is proved for the single operations only.

Main statements:
  * `StaysWithin.bind`: programs one after the other;
  * `createDirectories_staysWithin`: directories are made where nothing was;
  * `run_writeBelow_cases`: how writing a file ends, and what it changes.
-/

namespace AvroSwagger.Files

/-! ## §1. Programs that stay within a relation. -/

/-- **Every run of a program changes the tree only as `R` allows.** -/
def StaysWithin (R : FileTree → FileTree → Prop) {α : Type} (x : StateM FileTree α) : Prop :=
  ∀ tree, R tree (x.run tree).2

section

variable {R : FileTree → FileTree → Prop} {α β : Type}

theorem StaysWithin.pure (hrefl : ∀ tree, R tree tree) (a : α) :
    StaysWithin R (Pure.pure a : StateM FileTree α) := hrefl

theorem StaysWithin.bind (htrans : ∀ {a b c}, R a b → R b c → R a c) {x : StateM FileTree α}
    {f : α → StateM FileTree β} (hx : StaysWithin R x) (hf : ∀ a, StaysWithin R (f a)) :
    StaysWithin R (x >>= f) := by
  intro tree
  exact htrans (hx tree) (hf (x.run tree).1 (x.run tree).2)

end

/-- A program changes nothing. -/
abbrev ReadsOnly {α : Type} (x : StateM FileTree α) : Prop := StaysWithin Eq x

theorem ReadsOnly.pure {α : Type} (a : α) : ReadsOnly (Pure.pure a : StateM FileTree α) :=
  StaysWithin.pure (fun _ => rfl) a

theorem ReadsOnly.bind {α β : Type} {x : StateM FileTree α} {f : α → StateM FileTree β}
    (hx : ReadsOnly x) (hf : ∀ a, ReadsOnly (f a)) : ReadsOnly (x >>= f) :=
  StaysWithin.bind (R := Eq) (fun h h' => h.trans h') hx hf

theorem ReadsOnly.staysWithin {α : Type} {x : StateM FileTree α}
    {R : FileTree → FileTree → Prop} (h : ReadsOnly x) (hrefl : ∀ tree, R tree tree) :
    StaysWithin R x := by
  intro tree
  rw [← h tree]
  exact hrefl tree

theorem ReadsOnly.run_eq {α : Type} {x : StateM FileTree α} (h : ReadsOnly x) (tree : FileTree) :
    x.run tree = ((x.run tree).1, tree) := Prod.ext rfl (h tree).symm

theorem readText_readsOnly (path : String) : ReadsOnly (FileTree.access.readText path) := by
  unfold FileAccess.readText
  refine ReadsOnly.bind (fun _ => rfl) ?_
  intro result
  split
  next => exact ReadsOnly.pure _
  next => split <;> exact ReadsOnly.pure _

/-! ## §2. Missing directories. -/

/-- **Nothing changes but that directories are added** where nothing was, each at the place that
one of the texts leads to. -/
structure AddsDirectories (texts : String → Prop) (tree after : FileTree) : Prop where
  workingDirectory_eq : after.workingDirectory = tree.workingDirectory
  entry (place : List String) : after.entry? place = tree.entry? place
    ∨ tree.entry? place = none ∧ after.entry? place = some .directory
      ∧ ∃ text, texts text ∧ after.resolve text = .ok place

variable {texts texts' : String → Prop} {tree mid after : FileTree}

theorem AddsDirectories.refl (tree : FileTree) : AddsDirectories texts tree tree :=
  ⟨rfl, fun _ => .inl rfl⟩

theorem AddsDirectories.keepsDirectories (h : AddsDirectories texts tree after) :
    FileTree.KeepsDirectories tree after where
  workingDirectory_eq := h.workingDirectory_eq
  directory := by
    intro place hplace
    rcases h.entry place with hsame | ⟨hnone, -, -⟩
    · rw [hsame, hplace]
    · exact absurd (hnone.symm.trans hplace) (by simp)

theorem AddsDirectories.trans (h : AddsDirectories texts tree mid)
    (h' : AddsDirectories texts mid after) : AddsDirectories texts tree after where
  workingDirectory_eq := h'.workingDirectory_eq.trans h.workingDirectory_eq
  entry := by
    intro place
    rcases h'.entry place with hlater | ⟨hnone, hlater, hplace⟩
    · rcases h.entry place with hsame | ⟨hnone, hadded, text, htext, hresolve⟩
      · exact .inl (hlater.trans hsame)
      · -- the text still leads to the directory that was added first
        exact .inr ⟨hnone, hlater.trans hadded, text, htext,
          h'.keepsDirectories.resolve hresolve⟩
    · rcases h.entry place with hsame | ⟨-, hadded, -⟩
      · exact .inr ⟨hsame ▸ hnone, hlater, hplace⟩
      · exact absurd (hnone.symm.trans hadded) (by simp)

theorem AddsDirectories.mono (h : AddsDirectories texts tree after)
    (hsub : ∀ text, texts text → texts' text) : AddsDirectories texts' tree after where
  workingDirectory_eq := h.workingDirectory_eq
  entry := by
    intro place
    rcases h.entry place with hsame | ⟨hnone, hadded, text, htext, hresolve⟩
    · exact .inl hsame
    · exact .inr ⟨hnone, hadded, text, hsub text htext, hresolve⟩

/-- An operation on a tree changes it, or fails and changes nothing. -/
theorem run_attempt (operation : FileTree → Except FileError FileTree) (tree : FileTree) :
    (∃ after, operation tree = .ok after
        ∧ (FileTree.attempt operation).run tree = (.ok (), after))
      ∨ ∃ e, (FileTree.attempt operation).run tree = (.error e, tree) := by
  show (∃ after, _ ∧ FileTree.attempt operation tree = _) ∨ ∃ e, FileTree.attempt operation tree = _
  unfold FileTree.attempt
  cases operation tree with
  | ok after => exact .inl ⟨after, rfl, rfl⟩
  | error e => exact .inr ⟨e, rfl⟩

theorem createDirectory_staysWithin {path : String} (hpath : texts path) :
    StaysWithin (AddsDirectories texts) (FileTree.access.createDirectory path) := by
  intro tree
  obtain ⟨changed, h, hrun⟩ | ⟨e, hrun⟩ := run_attempt (·.createDirectory path) tree
  · show AddsDirectories texts tree ((FileTree.attempt (·.createDirectory path)).run tree).2
    rw [hrun]
    obtain ⟨place, hresolve, hnone, hchange⟩ := FileTree.createDirectory_spec h
    refine ⟨hchange.workingDirectory_eq, fun other => ?_⟩
    by_cases hother : other = place
    · exact .inr ⟨hother ▸ hnone, hother ▸ hchange.here, path, hpath, hother ▸ hresolve⟩
    · exact .inl (hchange.elsewhere other hother)
  · show AddsDirectories texts tree ((FileTree.attempt (·.createDirectory path)).run tree).2
    rw [hrun]
    exact .refl tree

/-- A path goes through the directory that a text names: the path or a directory above it, as
they are written. -/
def GoesThrough (path text : String) : Prop :=
  Relation.ReflTransGen (fun lower upper => parent? lower = some upper) path text

/-- A text names a directory above a path. -/
def IsAbove (text path : String) : Prop :=
  ∃ above, parent? path = some above ∧ GoesThrough above text

theorem GoesThrough.of_parent {path above text : String} (hparent : parent? path = some above)
    (h : GoesThrough above text) : GoesThrough path text := Relation.ReflTransGen.head hparent h

theorem unlessDirectory_readsOnly (path : String) (e : FileError) :
    ReadsOnly (FileTree.access.unlessDirectory path e) := by
  unfold FileAccess.unlessDirectory
  refine ReadsOnly.bind (fun _ => rfl) ?_
  intro isDirectory
  split <;> exact ReadsOnly.pure _

/-- One directory is made, if those above it are. -/
theorem createDirectories_step {steps : Nat} {path : String}
    (habove : ∀ fewer above, steps = fewer + 1 → parent? path = some above →
      StaysWithin (AddsDirectories (GoesThrough above))
        (FileTree.access.createDirectories fewer above)) :
    StaysWithin (AddsDirectories (GoesThrough path))
      (FileTree.access.createDirectories steps path) := by
  have hself : StaysWithin (AddsDirectories (GoesThrough path))
      (FileTree.access.createDirectory path) := createDirectory_staysWithin .refl
  unfold FileAccess.createDirectories
  split
  next => exact StaysWithin.pure .refl _
  next =>
    refine StaysWithin.bind .trans hself ?_
    intro result
    split
    next => exact StaysWithin.pure .refl _
    next =>
      split
      next fewer above hparent =>
        have hbelow : StaysWithin (AddsDirectories (GoesThrough path))
            (FileTree.access.createDirectories fewer above) := by
          intro tree
          exact (habove fewer above rfl hparent tree).mono fun text => .of_parent hparent
        refine StaysWithin.bind .trans hbelow ?_
        intro made
        split
        next => exact StaysWithin.pure .refl _
        next =>
          refine StaysWithin.bind .trans hself ?_
          intro again
          split
          next => exact StaysWithin.pure .refl _
          next e => exact (unlessDirectory_readsOnly path e).staysWithin .refl
      next => exact StaysWithin.pure .refl _
    next e _ => exact (unlessDirectory_readsOnly path e).staysWithin .refl

/-- **Making a directory and those above it** adds directories that the path goes through. -/
theorem createDirectories_staysWithin (steps : Nat) (path : String) :
    StaysWithin (AddsDirectories (GoesThrough path))
      (FileTree.access.createDirectories steps path) := by
  induction steps generalizing path with
  | zero =>
    exact createDirectories_step fun fewer above hsteps => absurd hsteps (by simp)
  | succ steps ih =>
    refine createDirectories_step fun fewer above hsteps hparent => ?_
    obtain rfl : steps = fewer := by simpa using hsteps
    exact ih above

/-- Makes the directories above a path if they are missing. -/
def makeAbove (path : String) : StateM FileTree (Except FileError Unit) := do
  let above := (parent? path).getD ""
  if above.isEmpty then return .ok ()
  else if ← FileTree.access.isPresent above then return .ok ()
  else FileTree.access.createDirectories above.length above

/-- A file is written in two steps: the directories above it, and then the file. -/
theorem writeBelow_eq (path : String) (content : ByteArray) :
    FileTree.access.writeBelow path content = makeAbove path >>= fun ready =>
      match ready with
      | .error e => pure (.error e)
      | .ok () => FileTree.access.write path content := by
  unfold FileAccess.writeBelow makeAbove
  dsimp only
  by_cases hempty : ((parent? path).getD "").isEmpty = true
  · rewrite [if_pos hempty, if_pos hempty]
    rfl
  · rw [if_neg hempty, if_neg hempty, bind_assoc]
    congr 1
    funext isPresent
    by_cases hpresent : isPresent = true
    · rewrite [if_pos hpresent, if_pos hpresent]
      rfl
    · rewrite [if_neg hpresent, if_neg hpresent]
      rfl

theorem makeAbove_staysWithin (path : String) :
    StaysWithin (AddsDirectories (IsAbove · path)) (makeAbove path) := by
  unfold makeAbove
  dsimp only
  split
  next => exact StaysWithin.pure .refl _
  next hempty =>
    refine StaysWithin.bind .trans (ReadsOnly.staysWithin (fun _ => rfl) .refl) ?_
    intro isPresent
    split
    next => exact StaysWithin.pure .refl _
    next =>
      intro tree
      cases hparent : parent? path with
      | none => exact absurd (by rw [hparent]; rfl) hempty
      | some above =>
        exact (createDirectories_staysWithin _ above tree).mono fun text htext =>
          ⟨above, hparent, htext⟩

/-! ## §3. A file below directories. -/

/-- **A file was written**: the content stands at the place that the path leads to, where no
directory was, and nothing else changed but that directories above the path that were missing
are there. -/
structure Written (path : String) (content : ByteArray) (tree after : FileTree) : Prop where
  workingDirectory_eq : after.workingDirectory = tree.workingDirectory
  exists_place : ∃ place, after.resolve path = .ok place
    ∧ tree.entry? place ≠ some .directory ∧ after.entry? place = some (.file content)
  /-- If the path led to a place before, that is the place. -/
  samePlace (place : List String) : tree.resolve path = .ok place → after.resolve path = .ok place
  elsewhere (other : List String) : after.resolve path ≠ .ok other →
    after.entry? other = tree.entry? other
      ∨ tree.entry? other = none ∧ after.entry? other = some .directory
        ∧ ∃ above, IsAbove above path ∧ after.resolve above = .ok other

theorem Written.read_eq {path : String} {content : ByteArray}
    (h : Written path content tree after) : after.read path = .ok content := by
  obtain ⟨place, hresolve, -, hentry⟩ := h.exists_place
  exact FileTree.read_of_entry? hresolve hentry

/-- A file is written after directories were added. -/
theorem AddsDirectories.written {path : String} {content : ByteArray}
    (h : AddsDirectories (IsAbove · path) tree mid)
    (hwrite : mid.write path content = .ok after) : Written path content tree after := by
  obtain ⟨place, hresolve, hold, hchange⟩ := FileTree.write_spec hwrite
  have hkeeps : FileTree.KeepsDirectories mid after := hchange.keepsDirectories hold
  refine ⟨hchange.workingDirectory_eq.trans h.workingDirectory_eq, ⟨place, hresolve, ?_,
    hchange.here⟩, ?_, ?_⟩
  · intro hdir
    exact hold (h.keepsDirectories.directory hdir)
  · intro other hother
    exact hkeeps.resolve (h.keepsDirectories.resolve hother)
  · intro other hother
    have hne : other ≠ place := by
      intro heq
      exact hother (heq ▸ hresolve)
    rw [hchange.elsewhere other hne]
    rcases h.entry other with hsame | ⟨hnone, hadded, text, htext, htextResolve⟩
    · exact .inl hsame
    · exact .inr ⟨hnone, hadded, text, htext, hkeeps.resolve htextResolve⟩

/-- **A file is written below directories**, or all ends with an error and nothing but
directories above the file was added. -/
theorem run_writeBelow_cases (path : String) (content : ByteArray) (tree : FileTree) :
    (∃ after, (FileTree.access.writeBelow path content).run tree = (.ok (), after)
        ∧ Written path content tree after)
      ∨ ∃ e after, (FileTree.access.writeBelow path content).run tree = (.error e, after)
        ∧ AddsDirectories (IsAbove · path) tree after := by
  have habove := makeAbove_staysWithin path tree
  rw [writeBelow_eq, StateT.run_bind]
  generalize (makeAbove path).run tree = made at habove ⊢
  obtain ⟨result, mid⟩ := made
  cases result with
  | error e => exact .inr ⟨e, mid, rfl, habove⟩
  | ok u =>
    -- the directories are there, and what remains is the write itself
    obtain ⟨after, hwrite, hrun⟩ | ⟨e, hrun⟩ := run_attempt (·.write path content) mid
    · exact .inl ⟨after, hrun, habove.written hwrite⟩
    · exact .inr ⟨e, mid, hrun, habove⟩

end AvroSwagger.Files
