import AvroSwagger.Files.Tree
import AvroSwagger.Proofs.ReadingRules
import Mathlib.Data.List.TakeWhile

/-!
# AvroSwagger.Proofs.FileTrees

**What an operation on a file tree changes, and what it leaves as it was.**

A tree is told by the entry at each place: a file with its content, a directory, or
nothing.  Making a directory and writing a file change the entry at one place.  No
directory is ever lost, so a path that could be followed is followed to the same place
afterwards.

Main statements:
  * `FileNode.entry_get?_put`: what is put at one place changes no other entry;
  * `FileTree.KeepsDirectories.resolve`: paths lead to the same places as long as directories stay;
  * `FileTree.createDirectory_spec`, `FileTree.write_spec`: the one place that changes.
-/

namespace AvroSwagger.Files

open OrderedMap

/-! ## §1. Entries. -/

/-- What is seen at a place of a tree. -/
inductive Entry where
  | file (content : ByteArray)
  | directory

namespace FileNode

def entry : FileNode → Entry
  | .file content => .file content
  | .directory _ => .directory

theorem entry_eq_directory_iff {node : FileNode} :
    node.entry = .directory ↔ ∃ entries, node = .directory entries := by
  cases node <;> simp [entry]

/-- Nothing stands in a leaf. -/
def IsLeaf (node : FileNode) : Prop := ∀ name rest, node.get? (name :: rest) = none

theorem isLeaf_file (content : ByteArray) : (file content).IsLeaf := fun _ _ => rfl

theorem isLeaf_emptyDirectory : (directory []).IsLeaf := fun _ _ => rfl

/-- What stands below a name stands below a child of a directory. -/
theorem get?_cons_eq_some_iff {node found : FileNode} {name : String} {rest : List String} :
    node.get? (name :: rest) = some found ↔
      ∃ entries child, node = .directory entries ∧ find? entries name = some child
        ∧ child.get? rest = some found := by
  cases node with
  | file content => simp [get?]
  | directory entries => simp [get?, Option.bind_eq_some_iff]

variable {new node : FileNode} {entries : List (String × FileNode)}

theorem put_singleton (name : String) :
    new.put [name] (.directory entries) = .directory (OrderedMap.insert entries name new) := by
  unfold put
  cases find? entries name <;> rfl

theorem put_cons_of_find? {child : FileNode} {name : String} (h : find? entries name = some child)
    (rest : List String) :
    new.put (name :: rest) (.directory entries)
      = .directory (OrderedMap.insert entries name (new.put rest child)) := by
  rw [put, h]

/-- What is put in a directory is found there. -/
theorem get?_put_self {place : List String} {name : String}
    (h : node.get? place = some (.directory entries)) :
    (new.put (place ++ [name]) node).get? (place ++ [name]) = some new := by
  induction place generalizing node with
  | nil =>
    injection h with h
    rw [h, List.nil_append, put_singleton]
    simp [get?, find?_insert]
  | cons first place ih =>
    obtain ⟨siblings, child, rfl, hchild, h⟩ := get?_cons_eq_some_iff.mp h
    rw [List.cons_append, put_cons_of_find? hchild]
    simp [get?, find?_insert, ih h]

/-- **A leaf that is put in the place of a leaf** or of nothing changes no other entry. -/
theorem entry_get?_put {place other : List String} {name : String}
    (h : node.get? place = some (.directory entries)) (hnew : new.IsLeaf)
    (hold : ∀ old, node.get? (place ++ [name]) = some old → old.IsLeaf)
    (hother : other ≠ place ++ [name]) :
    ((new.put (place ++ [name]) node).get? other).map entry = (node.get? other).map entry := by
  induction place generalizing node other with
  | nil =>
    injection h with h
    rw [h] at hold ⊢
    rw [List.nil_append, put_singleton]
    cases other with
    | nil => rfl
    | cons first rest =>
      by_cases hfirst : name = first
      · -- below the name there is nothing before and nothing afterwards
        cases rest with
        | nil => exact absurd (by rw [← hfirst]; rfl) hother
        | cons second rest =>
          have hbefore : ∀ old, find? entries name = some old →
              old.get? (second :: rest) = none := by
            intro old hfind
            refine hold old ?_ second rest
            simp [get?, hfind]
          simp only [get?, find?_insert, ← hfirst, if_true, Option.bind_some, hnew second rest]
          cases hfind : find? entries name with
          | none => rfl
          | some old => rw [Option.bind_some, hbefore old hfind]
      · simp [get?, find?_insert, hfirst]
  | cons first place ih =>
    obtain ⟨siblings, child, rfl, hchild, h⟩ := get?_cons_eq_some_iff.mp h
    rw [List.cons_append, put_cons_of_find? hchild]
    cases other with
    | nil => rfl
    | cons head rest =>
      by_cases hhead : first = head
      · have hrest : rest ≠ place ++ [name] := by
          intro heq
          exact hother (by rw [← hhead, heq, List.cons_append])
        have hchildOld : ∀ old, child.get? (place ++ [name]) = some old → old.IsLeaf := by
          intro old hfind
          exact hold old (get?_cons_eq_some_iff.mpr ⟨siblings, child, rfl, hchild, hfind⟩)
        simpa [get?, find?_insert, ← hhead, hchild] using ih h hchildOld hrest
      · simp [get?, find?_insert, hhead]

end FileNode

namespace FileTree

variable {tree after : FileTree}

/-- What is seen at a place, if anything stands there. -/
def entry? (tree : FileTree) (place : List String) : Option Entry :=
  (tree.root.get? place).map FileNode.entry

theorem entry?_eq_directory_iff {place : List String} :
    tree.entry? place = some .directory ↔
      ∃ entries, tree.root.get? place = some (.directory entries) := by
  unfold entry?
  rw [Option.map_eq_some_iff]
  constructor
  · intro h
    obtain ⟨node, hnode, hentry⟩ := h
    obtain ⟨entries, rfl⟩ := FileNode.entry_eq_directory_iff.mp hentry
    exact ⟨entries, hnode⟩
  · intro h
    obtain ⟨entries, hnode⟩ := h
    exact ⟨_, hnode, rfl⟩

theorem entry?_eq_file_iff {place : List String} {content : ByteArray} :
    tree.entry? place = some (.file content) ↔
      tree.root.get? place = some (.file content) := by
  unfold entry?
  rw [Option.map_eq_some_iff]
  constructor
  · intro h
    obtain ⟨node, hnode, hentry⟩ := h
    cases node with
    | file bytes =>
      injection hentry with hentry
      rw [hnode, hentry]
    | directory entries => exact absurd hentry (by simp [FileNode.entry])
  · intro h
    exact ⟨_, h, rfl⟩

/-! ## §2. Following a path. -/

/-- The place that a part leads to from a directory; none if the part is too long for a name. -/
def onward? (place : List String) (part : String) : Option (List String) :=
  if part = "" ∨ part = "." then some place
  else if part = ".." then some place.dropLast
  else if nameLimit < part.utf8ByteSize then none
  else some (place ++ [part])

/-- Every part leads on from a directory. -/
theorem follow_cons_eq_ok_iff {place goal : List String} {part : String} {rest : List String} :
    tree.follow place (part :: rest) = .ok goal ↔
      tree.entry? place = some .directory
        ∧ ∃ next, onward? place part = some next ∧ tree.follow next rest = .ok goal := by
  rw [follow]
  unfold onward? entry?
  cases tree.root.get? place with
  | none => simp
  | some node =>
    cases node with
    | file content => simp [FileNode.entry]
    | directory entries =>
      simp only [Option.map_some, FileNode.entry, true_and]
      split
      next => simp
      next =>
        split
        next => simp
        next => split <;> simp

theorem follow_append_eq_ok_iff {place goal front back : List String} :
    tree.follow place (front ++ back) = .ok goal ↔
      ∃ mid, tree.follow place front = .ok mid ∧ tree.follow mid back = .ok goal := by
  induction front generalizing place with
  | nil => simp [follow]
  | cons part front ih =>
    simp only [List.cons_append, follow_cons_eq_ok_iff, ih]
    constructor
    · intro h
      obtain ⟨hdir, next, hnext, mid, hfront, hback⟩ := h
      exact ⟨mid, ⟨hdir, next, hnext, hfront⟩, hback⟩
    · intro h
      obtain ⟨mid, ⟨hdir, next, hnext, hfront⟩, hback⟩ := h
      exact ⟨hdir, next, hnext, mid, hfront, hback⟩

/-- Empty parts stay in a directory. -/
theorem follow_idle {place parts : List String} (hdir : tree.entry? place = some .directory)
    (hparts : ∀ part ∈ parts, part = "") : tree.follow place parts = .ok place := by
  induction parts with
  | nil => rfl
  | cons part rest ih =>
    obtain ⟨hpart, hrest⟩ := List.forall_mem_cons.mp hparts
    exact follow_cons_eq_ok_iff.mpr ⟨hdir, place, by simp [onward?, hpart], ih hrest⟩

/-- **No directory is lost** from one tree to another, and the working directory is the same. -/
structure KeepsDirectories (tree after : FileTree) : Prop where
  workingDirectory_eq : after.workingDirectory = tree.workingDirectory
  directory {place : List String} : tree.entry? place = some .directory →
    after.entry? place = some .directory

theorem KeepsDirectories.follow (h : KeepsDirectories tree after) {place goal parts : List String}
    (hfollow : tree.follow place parts = .ok goal) : after.follow place parts = .ok goal := by
  induction parts generalizing place with
  | nil => exact hfollow
  | cons part rest ih =>
    obtain ⟨hdir, next, hnext, hrest⟩ := follow_cons_eq_ok_iff.mp hfollow
    exact follow_cons_eq_ok_iff.mpr ⟨h.directory hdir, next, hnext, ih hrest⟩

/-- **A path leads to the same place** as before if no directory was lost. -/
theorem KeepsDirectories.resolve (h : KeepsDirectories tree after) {path : String}
    {place : List String} (hresolve : tree.resolve path = .ok place) :
    after.resolve path = .ok place := by
  unfold FileTree.resolve at hresolve ⊢
  cases hflaw : flaw? path with
  | some e => rw [hflaw] at hresolve; exact absurd hresolve (by simp)
  | none =>
    rw [hflaw] at hresolve
    have horigin : after.origin path = tree.origin path := by
      rw [origin, origin, h.workingDirectory_eq]
    show after.follow (after.origin path) (segments path) = .ok place
    rw [horigin]
    exact h.follow hresolve

/-! ## §3. The place that an operation changes. -/

/-- A name that can be given to a file or a directory. -/
def IsName (name : String) : Prop :=
  name ≠ "" ∧ name ≠ "." ∧ name ≠ ".." ∧ name.utf8ByteSize ≤ nameLimit

theorem onward?_of_isName {name : String} (h : IsName name) (place : List String) :
    onward? place name = some (place ++ [name]) := by
  obtain ⟨hempty, hdot, hdots, hlimit⟩ := h
  simp [onward?, hempty, hdot, hdots, hlimit]

/-- **The place that a path names its last part in**: what stands before this part leads to a
directory, and what stands behind it are empty parts. -/
theorem target_eq_ok {path name : String} {directory : List String}
    (h : tree.target path = .ok (directory, name)) (hname : name ≠ "") :
    flaw? path = none ∧ tree.entry? directory = some .directory
      ∧ ∃ before trailing, segments path = before ++ name :: trailing
        ∧ (∀ part ∈ trailing, part = "")
        ∧ tree.follow (tree.origin path) before = .ok directory := by
  unfold target at h
  split at h
  next => exact absurd h (by simp)
  next hflaw =>
    split at h
    next =>
      injection h with h
      injection h with hdirectory hempty
      exact absurd hempty.symm hname
    next last before hparts =>
      rw [bind_eq_ok_iff] at h
      obtain ⟨place, hplace, h⟩ := h
      rw [bind_eq_ok_iff] at h
      obtain ⟨found, hfound, h⟩ := h
      injection h with h
      injection h with hdirectory hlast
      -- the directory that is asked for is the one that the parts lead to
      obtain ⟨hdir, next, hnext, hstay⟩ := follow_cons_eq_ok_iff.mp hfound
      injection hnext with hnext
      injection hstay with hstay
      have hsame : directory = place := by rw [← hdirectory, ← hstay, ← hnext]
      have hsplit : ((segments path).reverse.takeWhile fun part => decide (part = ""))
          ++ last :: before = (segments path).reverse := by
        rw [← hparts]
        exact List.takeWhile_append_dropWhile
      have hidle : ∀ part ∈ (segments path).reverse.takeWhile fun part => decide (part = ""),
          part = "" := by
        intro part hpart
        simpa using List.mem_takeWhile_imp hpart
      generalize ((segments path).reverse.takeWhile fun part => decide (part = "")) = idle
        at hsplit hidle
      refine ⟨hflaw, hsame ▸ hdir, before.reverse, idle.reverse, ?_, ?_, hsame ▸ hplace⟩
      · rw [← hlast, ← List.reverse_inj, ← hsplit]
        simp
      · intro part hpart
        exact hidle part (List.mem_reverse.mp hpart)

/-- The parts of a list of characters between slashes. -/
def splitSlashes : List Char → List (List Char)
  | [] => [[]]
  | c :: cs =>
    if c = '/' then [] :: splitSlashes cs
    else match splitSlashes cs with
      | part :: rest => (c :: part) :: rest
      | [] => [[c]]

theorem segments_eq_map (path : String) :
    segments path = (splitSlashes path.toList).map String.ofList := by
  unfold segments
  congr 1
  induction path.toList with
  | nil => rfl
  | cons c cs ih => rw [List.foldr_cons, ih]; rfl

/-- Text that does not end in a slash ends in a part that is not empty. -/
theorem getLast?_splitSlashes {cs : List Char} (hne : cs ≠ []) (hlast : cs.getLast? ≠ some '/') :
    ∃ front last, splitSlashes cs = front ++ [last] ∧ last ≠ [] := by
  induction cs with
  | nil => exact absurd rfl hne
  | cons c cs ih =>
    by_cases hcs : cs = []
    · have hc : c ≠ '/' := by
        intro hc
        exact hlast (by rw [hcs, hc]; rfl)
      exact ⟨[], [c], by simp [hcs, splitSlashes, hc], by simp⟩
    · obtain ⟨front, last, hsplit, hlastNe⟩ := ih hcs (by
        rwa [List.getLast?_cons_of_ne_nil hcs] at hlast)
      by_cases hc : c = '/'
      · exact ⟨[] :: front, last, by simp [splitSlashes, hc, hsplit], hlastNe⟩
      · -- the character joins the first part, which may be the last one
        cases front with
        | nil => exact ⟨[], c :: last, by simp [splitSlashes, hc, hsplit], by simp⟩
        | cons part front =>
          exact ⟨(c :: part) :: front, last, by simp [splitSlashes, hc, hsplit], hlastNe⟩

/-- A path that does not end in a slash has no empty parts at its end. -/
theorem trailing_eq_nil {path : String} (hne : path.toList ≠ [])
    (hlast : path.toList.getLast? ≠ some '/') {front trailing : List String}
    (hsplit : segments path = front ++ trailing) (hidle : ∀ part ∈ trailing, part = "") :
    trailing = [] := by
  obtain ⟨before, last, hparts, hlastNe⟩ := getLast?_splitSlashes hne hlast
  by_contra htrailing
  have hend : (segments path).getLast? = some "" := by
    rw [hsplit, List.getLast?_append_of_ne_nil _ htrailing,
      List.getLast?_eq_some_getLast htrailing, hidle _ (List.getLast_mem htrailing)]
  rw [segments_eq_map, hparts, List.map_append, List.map_singleton, List.getLast?_concat] at hend
  injection hend with hend
  exact hlastNe (by simpa using congrArg String.toList hend)

/-- The path of a name leads to the name, if slashes behind it stand behind a directory. -/
theorem resolve_of_target {path name : String} {directory : List String}
    (h : tree.target path = .ok (directory, name)) (hname : IsName name)
    (hkeeps : KeepsDirectories tree after)
    (hend : path.toList.getLast? ≠ some '/'
      ∨ after.entry? (directory ++ [name]) = some .directory) :
    after.resolve path = .ok (directory ++ [name]) := by
  obtain ⟨hflaw, hdir, before, trailing, hsegments, htrailing, hbefore⟩ :=
    target_eq_ok h hname.1
  have hrest : after.follow (directory ++ [name]) trailing = .ok (directory ++ [name]) := by
    rcases hend with hlast | hentry
    · have hne : path.toList ≠ [] := by
        intro hnil
        rw [show path = "" from String.toList_inj.mp hnil] at hflaw
        exact absurd hflaw (by decide)
      rw [List.append_cons] at hsegments
      rw [trailing_eq_nil hne hlast hsegments htrailing]
      rfl
    · exact follow_idle hentry htrailing
  have horigin : after.origin path = tree.origin path := by
    rw [origin, origin, hkeeps.workingDirectory_eq]
  unfold resolve
  rw [hflaw, horigin, hsegments]
  exact follow_append_eq_ok_iff.mpr ⟨directory, hkeeps.follow hbefore,
    follow_cons_eq_ok_iff.mpr ⟨hkeeps.directory hdir, _, onward?_of_isName hname directory, hrest⟩⟩

/-- **One entry changes**, and nothing else does. -/
structure ChangesAt (place : List String) (entry : Entry) (tree after : FileTree) : Prop where
  workingDirectory_eq : after.workingDirectory = tree.workingDirectory
  here : after.entry? place = some entry
  elsewhere (other : List String) : other ≠ place → after.entry? other = tree.entry? other

theorem ChangesAt.keepsDirectories {place : List String} {entry : Entry}
    (h : ChangesAt place entry tree after) (hold : tree.entry? place ≠ some .directory) :
    KeepsDirectories tree after where
  workingDirectory_eq := h.workingDirectory_eq
  directory := by
    intro other hother
    by_cases heq : other = place
    · exact absurd (heq ▸ hother) hold
    · rw [h.elsewhere other heq, hother]

/-- A leaf that is put in a directory changes one entry. -/
theorem changesAt_put {new : FileNode} {directory : List String} {name : String}
    (hdir : tree.entry? directory = some .directory) (hnew : new.IsLeaf)
    (hold : tree.entry? (directory ++ [name]) ≠ some .directory) :
    ChangesAt (directory ++ [name]) new.entry tree
      { tree with root := new.put (directory ++ [name]) tree.root } := by
  obtain ⟨entries, hentries⟩ := entry?_eq_directory_iff.mp hdir
  refine ⟨rfl, ?_, ?_⟩
  · unfold entry?
    rw [FileNode.get?_put_self hentries]
    rfl
  · intro other hother
    refine FileNode.entry_get?_put hentries hnew ?_ hother
    intro old hfound
    cases old with
    | file content => exact FileNode.isLeaf_file content
    | directory siblings => exact absurd (entry?_eq_directory_iff.mpr ⟨siblings, hfound⟩) hold

/-- **A leaf that is put under the last part of a path** changes the entry that the path leads to
afterwards. -/
theorem resolve_put {path name : String} {directory : List String} {new : FileNode}
    (htarget : tree.target path = .ok (directory, name)) (hname : IsName name) (hnew : new.IsLeaf)
    (hold : tree.entry? (directory ++ [name]) ≠ some .directory)
    (hend : path.toList.getLast? ≠ some '/' ∨ new.entry = .directory)
    (hafter : { tree with root := new.put (directory ++ [name]) tree.root } = after) :
    after.resolve path = .ok (directory ++ [name])
      ∧ ChangesAt (directory ++ [name]) new.entry tree after := by
  obtain ⟨-, hdir, -⟩ := target_eq_ok htarget hname.1
  have hchange : ChangesAt (directory ++ [name]) new.entry tree after :=
    hafter ▸ changesAt_put hdir hnew hold
  refine ⟨resolve_of_target htarget hname (hchange.keepsDirectories hold) ?_, hchange⟩
  rcases hend with hlast | hentry
  · exact .inl hlast
  · exact .inr (hentry ▸ hchange.here)

/-- **Making a directory** changes the entry at its place from nothing to a directory. -/
theorem createDirectory_spec {path : String} (h : tree.createDirectory path = .ok after) :
    ∃ place, after.resolve path = .ok place ∧ tree.entry? place = none
      ∧ ChangesAt place .directory tree after := by
  unfold createDirectory at h
  obtain ⟨⟨directory, name⟩, htarget, h⟩ := bind_eq_ok_iff.mp h
  simp only at h
  split at h
  next => exact absurd h (by simp)
  next hspecial =>
    split at h
    next => exact absurd h (by simp)
    next hlimit =>
      split at h
      next => exact absurd h (by simp)
      next hnone =>
        injection h with h
        simp only [not_or] at hspecial
        have hname : IsName name := ⟨hspecial.1, hspecial.2.1, hspecial.2.2, Nat.not_lt.mp hlimit⟩
        have hmissing : tree.entry? (directory ++ [name]) = none := by
          unfold entry?
          rw [hnone]
          rfl
        obtain ⟨hresolve, hchange⟩ := resolve_put htarget hname
          FileNode.isLeaf_emptyDirectory (hmissing ▸ Option.some_ne_none _).symm (.inr rfl) h
        exact ⟨_, hresolve, hmissing, hchange⟩

/-- **Writing a file** changes the entry at its place, where no directory was, to the content. -/
theorem write_spec {path : String} {content : ByteArray}
    (h : tree.write path content = .ok after) :
    ∃ place, after.resolve path = .ok place ∧ tree.entry? place ≠ some .directory
      ∧ ChangesAt place (.file content) tree after := by
  unfold write at h
  obtain ⟨⟨directory, name⟩, htarget, h⟩ := bind_eq_ok_iff.mp h
  simp only at h
  split at h
  next => exact absurd h (by simp)
  next hspecial =>
    split at h
    next => exact absurd h (by simp)
    next hlimit =>
      split at h
      next => exact absurd h (by simp)
      next hnot =>
        injection h with h
        simp only [not_or] at hspecial
        obtain ⟨hempty, hdot, hdots, hslash⟩ := hspecial
        have hname : IsName name := ⟨hempty, hdot, hdots, Nat.not_lt.mp hlimit⟩
        have hold : tree.entry? (directory ++ [name]) ≠ some .directory := by
          intro hentry
          obtain ⟨entries, hentries⟩ := entry?_eq_directory_iff.mp hentry
          exact hnot entries hentries
        obtain ⟨hresolve, hchange⟩ := resolve_put htarget hname
          (FileNode.isLeaf_file content) hold (.inl hslash) h
        exact ⟨_, hresolve, hold, hchange⟩

/-- A file is read at the place that its path leads to. -/
theorem read_of_entry? {path : String} {place : List String} {content : ByteArray}
    (hresolve : tree.resolve path = .ok place)
    (hentry : tree.entry? place = some (.file content)) : tree.read path = .ok content := by
  have hnode : tree.node path = .ok (.file content) :=
    bind_eq_ok_iff.mpr ⟨place, hresolve, by rw [entry?_eq_file_iff.mp hentry]⟩
  exact bind_eq_ok_iff.mpr ⟨.file content, hnode, rfl⟩

end FileTree

end AvroSwagger.Files
