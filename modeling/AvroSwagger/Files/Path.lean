/-!
# AvroSwagger.Files.Path

**Paths as texts: parts between slashes, joining, parent and extension.**

Empty parts and single dots do not name anything, except a dot in front of a
relative path.  Two dots name the directory above.
-/

namespace AvroSwagger.Files

/-- The parts of a text between slashes. -/
def segments (path : String) : List String :=
  (path.toList.foldr
    (fun c acc => if c = '/' then [] :: acc else match acc with
      | part :: rest => (c :: part) :: rest
      | [] => [[c]]) [[]]).map String.ofList

/-- Whether a path starts at the root. -/
def isAbsolute (path : String) : Bool := path.toList.head? = some '/'

/-- A part that names nothing; `isFirst` marks the first part of a relative path. -/
def isIdle (isFirst : Bool) (segment : String) : Bool :=
  segment = "" || (segment = "." && !isFirst)

/-- Drops idle parts from the end of a reversed list of parts. -/
def dropIdle (absolute : Bool) : List String → List String
  | [] => []
  | s :: rest => if isIdle (!absolute && rest.isEmpty) s then dropIdle absolute rest else s :: rest

/-- The parts of a path behind the root, in reverse order, without idle parts at the end. -/
def reversedParts (path : String) : List String :=
  let parts := segments path
  let parts := if isAbsolute path then parts.drop 1 else parts
  dropIdle (isAbsolute path) parts.reverse

/-- **The path without its last part**, as it is written; `none` for the root and for the
empty path. -/
def parent? (path : String) : Option String :=
  match reversedParts path with
  | [] => none
  | _ :: rest =>
    let kept := "/".intercalate (dropIdle (isAbsolute path) rest).reverse
    some (if isAbsolute path then "/" ++ kept else kept)

/-- The last part of a path, if it is a name. -/
def fileName? (path : String) : Option String :=
  match reversedParts path with
  | [] => none
  | s :: _ => if s = "." || s = ".." then none else some s

/-- **The extension**: what follows the last dot of the file name, unless that dot is its
first character; empty without one. -/
def extension (path : String) : String :=
  match fileName? path with
  | none => ""
  | some name =>
    let chars := name.toList.reverse
    match chars.dropWhile (· ≠ '.') with
    | '.' :: _ :: _ => String.ofList (chars.takeWhile (· ≠ '.')).reverse
    | _ => ""

/-- **A path below a directory**; an absolute path stands for itself. -/
def join (directory path : String) : String :=
  if isAbsolute path then path
  else if directory.isEmpty || directory.toList.getLast? = some '/' then directory ++ path
  else directory ++ "/" ++ path

end AvroSwagger.Files
