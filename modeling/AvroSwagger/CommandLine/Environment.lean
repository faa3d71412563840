import AvroSwagger.OrderedMap
import AvroSwagger.Text.Alphanumeric

/-!
# AvroSwagger.CommandLine.Environment

**The variables of the environment, and a file that supplies those not set.**

The file assigns one variable a line, `KEY=value`, perhaps behind `export`.
Values may stand between apostrophes, where every character is itself, or
between quotation marks; outside of the former a backslash escapes and a dollar
sign inserts a variable.  A number sign after space starts a comment.  A quote
may span lines.  A variable that is set already is left alone, and the first
line that cannot be read ends the reading.
-/

namespace AvroSwagger.CommandLine

open AvroSwagger.Text

/-- Variables by name. -/
abbrev Environment : Type := OrderedMap String

/-! ## §1. Logical lines. -/

/-- Where a line stands with respect to quotes. -/
inductive QuoteState where
  | plain
  | space
  | escape
  | single
  | singleEscape
  | double
  | doubleEscape
  deriving DecidableEq

/-- Blank characters, line ends among them. -/
def isSpace (c : Char) : Bool :=
  (0x09 ≤ c.toNat && c.toNat ≤ 0x0D) || c = ' ' || c = '\x85' || c = '\xa0'
    || c.toNat = 0x1680 || (0x2000 ≤ c.toNat && c.toNat ≤ 0x200A)
    || c = '\u2028' || c = '\u2029' || c.toNat = 0x202F || c.toNat = 0x205F || c.toNat = 0x3000

/-- The state behind a character; `none` where a comment starts. -/
def QuoteState.step? : QuoteState → Char → Option QuoteState
  | .space, '#' => none
  | .escape, _ => some .plain
  | .single, '\\' => some .singleEscape
  | .single, '\'' => some .plain
  | .single, _ => some .single
  | .singleEscape, _ => some .single
  | .double, '\\' => some .doubleEscape
  | .double, '"' => some .plain
  | .double, _ => some .double
  | .doubleEscape, _ => some .double
  | _, '\\' => some .escape
  | _, '"' => some .double
  | _, '\'' => some .single
  | .plain, c => some (if isSpace c && c ≠ '\n' && c ≠ '\r' then .space else .plain)
  | .space, _ => some .plain

/-- Whether a text, blanks aside, starts with a number sign. -/
def isComment (line : List Char) : Bool := (line.dropWhile isSpace).head? = some '#'

/-- The characters of a text that fit into a number of bytes. -/
def takeBytes (bytes : Nat) : List Char → List Char
  | [] => []
  | c :: rest => if c.utf8Size ≤ bytes then c :: takeBytes (bytes - c.utf8Size) rest else []

/-- The logical lines of a text.  `read` holds the characters of the current one in reverse
order, `inComment` says that the rest of the line is dropped, `column` counts the bytes of the
physical line that were read.  A comment leaves as many bytes of the logical line as stand
before it on its physical line.  The last entry is `none` if a quote is left open. -/
def logicalLines (state : QuoteState) (read : List Char) (inComment : Bool) (column : Nat) :
    List Char → List (Option (List Char))
  | [] =>
    if inComment || state = .plain then (if read.isEmpty then [] else [some read.reverse])
    else [none]
  | c :: rest =>
    if inComment then
      if c = '\n' then some read.reverse :: logicalLines .plain [] false 0 rest
      else logicalLines state read true (column + c.utf8Size) rest
    else if column = 0 && isComment (read.reverse ++ c :: rest) then
      -- a comment at the start takes the whole line
      if c = '\n' then some [] :: logicalLines .plain [] false 0 rest
      else logicalLines .plain [] true c.utf8Size rest
    else match state.step? c with
      | none =>
        logicalLines .plain (takeBytes column read.reverse).reverse true (column + c.utf8Size) rest
      | some next =>
        if c = '\n' && next = .plain then
          some read.reverse :: logicalLines .plain [] false 0 rest
        else logicalLines next (c :: read) false (if c = '\n' then 0 else column + c.utf8Size) rest

/-! ## §2. Values. -/

/-- How a variable is being named inside a value. -/
inductive Insertion where
  | none
  /-- Behind a dollar sign. -/
  | bare
  /-- Between braces. -/
  | braced
  deriving DecidableEq

/-- The state in which a value is read. -/
structure ValueState where
  output : List Char
  single : Bool
  double : Bool
  escaped : Bool
  /-- The value is complete and only a comment may follow. -/
  ended : Bool
  insertion : Insertion
  name : List Char

namespace ValueState

/-- The state before the first character. -/
def start : ValueState := ⟨[], false, false, false, false, .none, []⟩

/-- Adds a character. -/
def push (s : ValueState) (c : Char) : ValueState := { s with output := c :: s.output }

/-- Adds the variable that was named. -/
def insertVariable (s : ValueState) (environment : Environment) : ValueState :=
  let value := (environment.find? (String.ofList s.name.reverse)).getD ""
  { s with output := value.toList.reverse ++ s.output, name := [], insertion := .none }

/-- An escaped character. -/
def escape? (s : ValueState) (c : Char) : Option ValueState :=
  if ['\\', '\'', '"', '$', ' '].contains c then some { s.push c with escaped := false }
  else if c = 'n' then some { s.push '\n' with escaped := false }
  else none

/-- A character inside the name of a variable: letters and numbers of any script go on with
it. -/
def inName (s : ValueState) (environment : Environment) (c : Char) : ValueState :=
  if isAlphanumeric c then { s with name := c :: s.name }
  else match s.insertion with
    | .braced =>
      if c = '\x7d' then s.insertVariable environment else { s with name := c :: s.name }
    | _ =>
      if c = '\x7b' && s.name.isEmpty then { s with insertion := .braced }
      else
        let s := s.insertVariable environment
        if c = '$' then { s with insertion := .bare } else s.push c

/-- One character; `none` where the value is wrong. -/
def step? (environment : Environment) (s : ValueState) (c : Char) : Option ValueState :=
  if s.ended then if c = ' ' || c = '\t' then some s else none
  else if s.escaped then s.escape? c
  else if s.single then some (if c = '\'' then { s with single := false } else s.push c)
  else if s.insertion ≠ .none then some (s.inName environment c)
  else if c = '$' then some { s with insertion := .bare }
  else if c = '\\' then some { s with escaped := true }
  else if c = '"' then some { s with double := !s.double }
  else if s.double then some (s.push c)
  else if c = '\'' then some { s with single := true }
  else if c = ' ' || c = '\t' then some { s with ended := true }
  else some (s.push c)

/-- The value at the end; `none` if a quote or a brace is left open. -/
def finish? (environment : Environment) (s : ValueState) : Option String :=
  if s.single || s.double || s.insertion = .braced then none
  else some (String.ofList (s.insertVariable environment).output.reverse)

/-- Reads a value from a state on. -/
def read? (environment : Environment) (s : ValueState) : List Char → Option String
  | [] => s.finish? environment
  | c :: rest =>
    if s.ended && c = '#' then s.finish? environment
    else match s.step? environment c with
      | some next => read? environment next rest
      | none => none

end ValueState

/-! ## §3. Assignments. -/

/-- A variable's name at the start of a text. -/
def readName? (text : List Char) : Option (List Char × List Char) :=
  match text with
  | c :: _ =>
    if c.isAlpha || c = '_' then
      let inName (c : Char) : Bool := c.isAlphanum || c = '_' || c = '.'
      some (text.takeWhile inName, (text.dropWhile inName).dropWhile isSpace)
    else none
  | [] => none

/-- What follows the sign of an assignment. -/
def readEqual? : List Char → Option (List Char)
  | '=' :: rest => some (rest.dropWhile isSpace)
  | _ => none

/-- A text without blanks at its end. -/
def dropSpaceAtEnd (text : List Char) : List Char := (text.reverse.dropWhile isSpace).reverse

/-- The name and the value of an assignment. -/
def readAssignment? (environment : Environment) (line : List Char) : Option (String × String) := do
  let (name, rest) ← readName? line
  let (name, rest) ← match readEqual? rest with
    | some rest => some (name, rest)
    | none =>
      if name = "export".toList then do
        let (name, rest) ← readName? rest
        let rest ← readEqual? rest
        some (name, rest)
      else none
  let value ← match rest with
    | [] => some ""
    | '#' :: _ => some ""
    | rest => ValueState.read? environment .start rest
  some (String.ofList name, value)

/-- The environment after the assignments of lines. -/
def assignLines (environment : Environment) : List (Option (List Char)) → Environment
  | [] => environment
  | none :: _ => environment
  | some line :: rest =>
    match (dropSpaceAtEnd line).dropWhile isSpace with
    | [] => assignLines environment rest
    | '#' :: _ => assignLines environment rest
    | text =>
      match readAssignment? environment text with
      | none => environment
      | some (name, value) =>
        if (environment.find? name).isSome then assignLines environment rest
        else assignLines (environment.insert name value) rest

/-! ## §4. The file. -/

/-- The physical lines of a file, each with its end. -/
def byteLines (content : List UInt8) : List (List UInt8) :=
  content.foldr
    (fun byte lines => if byte = 10 then [byte] :: lines else match lines with
      | line :: rest => (byte :: line) :: rest
      | [] => [[byte]]) []

/-- The text of lines up to the first that is no text. -/
def readableText : List (List UInt8) → String
  | [] => ""
  | line :: rest =>
    match String.fromUTF8? line.toByteArray with
    | some text => text ++ readableText rest
    | none => ""

/-- **The environment with the variables that a file supplies.** -/
def Environment.supplement (environment : Environment) (content : ByteArray) : Environment :=
  let text := match (readableText (byteLines content.toList)).toList with
    | '\ufeff' :: rest => rest
    | chars => chars
  assignLines environment (logicalLines .plain [] false 0 text)

end AvroSwagger.CommandLine
