import AvroSwagger.OrderedMap
import AvroSwagger.Files.Error
import AvroSwagger.Files.Path

/-!
# AvroSwagger.Files.Tree

**A file system as a value: directories, files and a working directory.**

Paths are followed part by part from the root or the working directory; every
part but the last has to be a directory.  Reading changes nothing; writing a
file replaces its whole content.
-/

namespace AvroSwagger.Files

/-- A file or a directory. -/
inductive FileNode where
  | file (content : ByteArray)
  | directory (entries : List (String × FileNode))

namespace FileNode

/-- The node at the end of a list of names. -/
def get? : List String → FileNode → Option FileNode
  | [], node => some node
  | _ :: _, .file _ => none
  | name :: rest, .directory entries => (OrderedMap.find? entries name).bind (get? rest)

/-- The node with another one put at the end of a list of names; directories on the way that
are missing are not made. -/
def put (new : FileNode) : List String → FileNode → FileNode
  | [], _ => new
  | _ :: _, .file content => .file content
  | name :: rest, .directory entries =>
    match OrderedMap.find? entries name with
    | some child => .directory (OrderedMap.insert entries name (put new rest child))
    | none => if rest.isEmpty then .directory (OrderedMap.insert entries name new)
      else .directory entries

/-- Whether a node is a directory. -/
def isDirectory : FileNode → Bool
  | .directory _ => true
  | .file _ => false

end FileNode

/-- **A file system** as a program sees it. -/
structure FileTree where
  root : FileNode
  /-- The names from the root to the working directory. -/
  workingDirectory : List String

namespace FileTree

/-- A file system that holds nothing but an empty working directory. -/
def empty : FileTree := ⟨.directory [("work", .directory [])], ["work"]⟩

/-! ## §1. Following a path. -/

/-- The length that a name in a directory may have, in bytes. -/
def nameLimit : Nat := 255

/-- The length that a path may have, in bytes. -/
def pathLimit : Nat := 4095

/-- Why a path cannot be followed in any tree; `none` if it can be tried. -/
def flaw? (path : String) : Option FileError :=
  if path.isEmpty then some .notFound
  else if path.toList.contains '\x00' then some .nullInPath
  else if pathLimit < path.utf8ByteSize then some .nameTooLong
  else none

/-- The names that a list of parts leads to from a directory.  Every part asks whether the
names so far lead to a directory. -/
def follow (tree : FileTree) (place : List String) : List String → Except FileError (List String)
  | [] => .ok place
  | part :: rest =>
    match tree.root.get? place with
    | none => .error .notFound
    | some (.file _) => .error .notADirectory
    | some (.directory _) =>
      if part = "" ∨ part = "." then follow tree place rest
      else if part = ".." then follow tree place.dropLast rest
      else if nameLimit < part.utf8ByteSize then .error .nameTooLong
      else follow tree (place ++ [part]) rest

/-- Where a path starts. -/
def origin (tree : FileTree) (path : String) : List String :=
  if isAbsolute path then [] else tree.workingDirectory

/-- The names that a path leads to; the last of them may name nothing yet. -/
def resolve (tree : FileTree) (path : String) : Except FileError (List String) :=
  match flaw? path with
  | some e => .error e
  | none => tree.follow (tree.origin path) (segments path)

/-- The node at a path. -/
def node (tree : FileTree) (path : String) : Except FileError FileNode := do
  let place ← tree.resolve path
  match tree.root.get? place with
  | some found => .ok found
  | none => .error .notFound

/-! ## §2. Operations. -/

/-- The content of a file. -/
def read (tree : FileTree) (path : String) : Except FileError ByteArray := do
  match ← tree.node path with
  | .file content => .ok content
  | .directory _ => .error .isADirectory

/-- Whether there is anything at a path. -/
def isPresent (tree : FileTree) (path : String) : Bool := (tree.node path).toOption.isSome

/-- Whether there is a directory at a path. -/
def isDirectory (tree : FileTree) (path : String) : Bool :=
  (tree.node path).toOption.any FileNode.isDirectory

/-- The directory in which a path names its last part, and that part.  Slashes at the end
do not count. -/
def target (tree : FileTree) (path : String) : Except FileError (List String × String) :=
  match flaw? path with
  | some e => .error e
  | none =>
    match (segments path).reverse.dropWhile (· = "") with
    | [] => .ok ([], "")
    | last :: before => do
      let place ← tree.follow (tree.origin path) before.reverse
      -- the directory itself is asked for, as any further part would
      let directory ← tree.follow place [""]
      .ok (directory, last)

/-- Makes a directory in one that exists. -/
def createDirectory (tree : FileTree) (path : String) : Except FileError FileTree := do
  let (directory, name) ← tree.target path
  if name = "" ∨ name = "." ∨ name = ".." then .error .alreadyExists
  else if nameLimit < name.utf8ByteSize then .error .nameTooLong
  else match tree.root.get? (directory ++ [name]) with
    | some _ => .error .alreadyExists
    | none => .ok { tree with root := (FileNode.directory []).put (directory ++ [name]) tree.root }

/-- Writes a file, which need not exist, in a directory that exists. -/
def write (tree : FileTree) (path : String) (content : ByteArray) : Except FileError FileTree := do
  let (directory, name) ← tree.target path
  if name = "" ∨ name = "." ∨ name = ".." ∨ path.toList.getLast? = some '/' then
    .error .isADirectory
  else if nameLimit < name.utf8ByteSize then .error .nameTooLong
  else match tree.root.get? (directory ++ [name]) with
    | some (.directory _) => .error .isADirectory
    | _ => .ok { tree with root := (FileNode.file content).put (directory ++ [name]) tree.root }

end FileTree

end AvroSwagger.Files
