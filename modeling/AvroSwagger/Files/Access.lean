import AvroSwagger.Files.Tree

/-!
# AvroSwagger.Files.Access

**What a program may ask of a file system, whatever the file system is.**

The operations run in any monad.  One instance works on a `FileTree` as state;
the program itself supplies another that works on the machine's files.
-/

namespace AvroSwagger.Files

/-- Access to files. -/
structure FileAccess (m : Type → Type) where
  read : String → m (Except FileError ByteArray)
  isPresent : String → m Bool
  isDirectory : String → m Bool
  createDirectory : String → m (Except FileError Unit)
  write : String → ByteArray → m (Except FileError Unit)

/-- An operation on a file tree that may fail and then changes nothing. -/
def FileTree.attempt (operation : FileTree → Except FileError FileTree) :
    StateM FileTree (Except FileError Unit) := fun tree =>
  match operation tree with
  | .ok changed => (.ok (), changed)
  | .error e => (.error e, tree)

/-- Access to the files of a tree. -/
def FileTree.access : FileAccess (StateM FileTree) where
  read path := fun tree => (tree.read path, tree)
  isPresent path := fun tree => (tree.isPresent path, tree)
  isDirectory path := fun tree => (tree.isDirectory path, tree)
  createDirectory path := FileTree.attempt fun tree => tree.createDirectory path
  write path content := FileTree.attempt fun tree => tree.write path content

namespace FileAccess

variable {m : Type → Type} [Monad m]

/-- The content of a file as text. -/
def readText (files : FileAccess m) (path : String) : m (Except FileError String) := do
  match ← files.read path with
  | .error e => return .error e
  | .ok content =>
    match String.fromUTF8? content with
    | some text => return .ok text
    | none => return .error .notText

/-- Accepts a failure where there is a directory anyway. -/
def unlessDirectory (files : FileAccess m) (path : String) (e : FileError) :
    m (Except FileError Unit) := do
  if ← files.isDirectory path then return .ok () else return .error e

/-- **Makes a directory and those above it that are missing.**  `steps` bounds the number of
directories; a path has at most as many parts as characters. -/
def createDirectories (files : FileAccess m) (steps : Nat) (path : String) :
    m (Except FileError Unit) := do
  if path.isEmpty then return .ok ()
  match ← files.createDirectory path with
  | .ok () => return .ok ()
  -- the directory above is missing: it is made first, and then this one once more
  | .error .notFound =>
    match steps, parent? path with
    | steps + 1, some above =>
      match ← createDirectories files steps above with
      | .error e => return .error e
      | .ok () =>
        match ← files.createDirectory path with
        | .ok () => return .ok ()
        | .error e => unlessDirectory files path e
    | _, _ => return .error (.other "failed to create whole tree")
  | .error e => unlessDirectory files path e

/-- Writes a file, and first the directories that its path goes through if they are
missing. -/
def writeBelow (files : FileAccess m) (path : String) (content : ByteArray) :
    m (Except FileError Unit) := do
  let above := (parent? path).getD ""
  let ready ← if above.isEmpty then pure (Except.ok ()) else do
    if ← files.isPresent above then pure (Except.ok ())
    else createDirectories files above.length above
  match ready with
  | .error e => return .error e
  | .ok () => files.write path content

end FileAccess

end AvroSwagger.Files
