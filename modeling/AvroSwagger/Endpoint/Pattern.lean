/-!
# AvroSwagger.Endpoint.Pattern

**The paths that an endpoint is mounted on.**

A mount path stands for itself, except that a name between braces stands for one
or more characters other than a slash.  A name with an asterisk behind it, at
the end, stands for whatever follows; an asterisk at the end without a name is
left out, and with it the text back to the last name.  The slash at the start
need not be written.
-/

namespace AvroSwagger

/-- A part of a mount path. -/
inductive PatternPart where
  /-- The character itself. -/
  | char (c : Char)
  /-- One or more characters other than a slash. -/
  | segment
  /-- Whatever follows. -/
  | remainder

namespace PatternPart

/-- Whether a text has no name in it and ends with an asterisk. -/
def isNamelessTail (text : List Char) : Bool :=
  !text.contains '\x7b' && text.getLast? = some '*'

/-- The parts of a mount path; `inName` says that a brace is open. -/
def read (inName : Bool) : List Char → List PatternPart
  | [] => []
  | c :: rest =>
    if inName then
      if c ≠ '\x7d' then read true rest
      else if rest = ['*'] then [remainder]
      else segment :: read false rest
    else if c = '\x7b' then read true rest
    else if isNamelessTail (c :: rest) then []
    else char c :: read false rest

/-- Whether a path consists of what the parts stand for. -/
def accept : List PatternPart → List Char → Bool
  | [], path => path.isEmpty
  | char c :: parts, d :: path => c = d && accept parts path
  | segment :: parts, d :: path =>
    d ≠ '/' && (accept parts path || accept (segment :: parts) path)
  | remainder :: _, _ => true
  | _ :: _, [] => false

end PatternPart

/-- A mount path with its slash at the start; the empty one has none. -/
def rooted : List Char → List Char
  | [] => []
  | c :: rest => if c = '/' then c :: rest else '/' :: c :: rest

/-- **Whether a mount path stands for a requested path.** -/
def isMountedOn (mountPath : String) (path : List Char) : Bool :=
  PatternPart.accept (PatternPart.read false (rooted mountPath.toList)) path

end AvroSwagger
