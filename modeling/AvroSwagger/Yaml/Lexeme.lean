import AvroSwagger.Text.Hexadecimal

/-!
# AvroSwagger.Yaml.Lexeme

**The words of a YAML text: scalars in all their notations, anchors, tags and
directives.**

Every function reads from a place where such a word starts and gives back what
is behind it.  Space inside a scalar is folded while it is read.
-/

namespace AvroSwagger.Yaml

open AvroSwagger.Text

/-! ## §1. Characters and their places. -/

/-- A character and where it stands. -/
structure Placed where
  char : Char
  /-- The number of bytes before it. -/
  index : Nat
  line : Nat
  column : Nat

/-- Whether a character ends a line.  Carriage returns and U+0085 are read as line feeds. -/
def isBreak (c : Char) : Bool := c = '\n' || c = '\u2028' || c = '\u2029'

/-- Whether a character separates words. -/
def isBlank (c : Char) : Bool := c = ' ' || c = '\t'

/-- Whether a character may stand in a text at all. -/
def isReadable (c : Char) : Bool :=
  c = '\t' || c = '\n' || c = '\r' || c = '\x85'
    || (0x20 ≤ c.toNat && c.toNat ≤ 0x7E)
    || (0xA0 ≤ c.toNat && c.toNat ≤ 0xD7FF)
    || (0xE000 ≤ c.toNat && c.toNat ≤ 0xFFFD) || 0x10000 ≤ c.toNat

/-- A text with all plain line ends written as line feeds. -/
def unifyBreaks : List Char → List Char
  | '\r' :: '\n' :: rest => '\n' :: unifyBreaks rest
  | '\r' :: rest => '\n' :: unifyBreaks rest
  | c :: rest => (if c = '\x85' then '\n' else c) :: unifyBreaks rest
  | [] => []

/-- Gives every character its place. -/
def placeFrom (index line column : Nat) : List Char → List Placed
  | [] => []
  | c :: rest =>
    ⟨c, index, line, column⟩ ::
      (if isBreak c then placeFrom (index + c.utf8Size) (line + 1) 0 rest
        else placeFrom (index + c.utf8Size) line (column + 1) rest)

/-- The placed characters of a text; `none` if it holds one that may not stand in a text. -/
def place? (text : String) : Option (List Placed) :=
  if text.toList.all isReadable then some (placeFrom 0 0 0 (unifyBreaks text.toList)) else none

/-- Whether a text starts with a blank, a line end, or not at all. -/
def atSpace : List Placed → Bool
  | [] => true
  | p :: _ => isBlank p.char || isBreak p.char

/-- Whether a text starts with the given character. -/
def startsWith (c : Char) : List Placed → Bool
  | [] => false
  | p :: _ => p.char = c

/-- The text behind blanks. -/
def dropBlanks (text : List Placed) : List Placed := text.dropWhile fun p => isBlank p.char

/-- Three equal characters and then a space: the marker of a document's start or end. -/
def isMarker (c : Char) : List Placed → Bool
  | p :: q :: r :: rest => p.char = c && q.char = c && r.char = c && atSpace rest
  | _ => false

/-- Whether a line starts with a document marker. -/
def isDocumentMarker : List Placed → Bool
  | [] => false
  | p :: rest => p.column = 0 && (isMarker '-' (p :: rest) || isMarker '.' (p :: rest))

/-! ## §2. Space inside scalars. -/

/-- The space between two words of a scalar: the blanks on one line, or the line ends.
The characters are in reverse order. -/
structure Gap where
  blanks : List Char
  breaks : List Char
  /-- Whether a line ended. -/
  folded : Bool
  /-- Whether the first line end was escaped and leaves nothing behind. -/
  escaped : Bool

namespace Gap

/-- No space. -/
def none : Gap := ⟨[], [], false, false⟩

/-- An escaped line end. -/
def afterEscape : Gap := ⟨[], [], true, true⟩

/-- A blank more; blanks next to a line end do not count. -/
def blank (g : Gap) (c : Char) : Gap := if g.folded then g else { g with blanks := c :: g.blanks }

/-- A line end more. -/
def lineEnd (g : Gap) (c : Char) : Gap :=
  { g with blanks := [], breaks := c :: g.breaks, folded := true }

/-- What the space contributes to the scalar, in reverse order: blanks stay, a single line
end becomes a blank, and of several line ends the first is dropped. -/
def reading (g : Gap) : List Char :=
  if !g.folded then g.blanks
  else if g.escaped then g.breaks
  else match g.breaks.reverse with
    | ['\n'] => [' ']
    | '\n' :: others => others.reverse
    | _ => g.breaks

end Gap

/-! ## §3. Scalars. -/

/-- The characters that delimit flow collections. -/
def isFlowIndicator (c : Char) : Bool := [',', '[', ']', '\x7b', '\x7d'].contains c

/-- Reads on in an unquoted scalar; `gap` is the space before the next character and `read`
what is read so far, in reverse order.  The answer says too whether a line ended behind the
scalar. -/
def scanPlain (inFlow : Bool) (indent : Nat) (gap : Gap) (read : List Char) :
    List Placed → Option (List Char × Bool × List Placed)
  | [] => some (read.reverse, gap.folded, [])
  | p :: rest =>
    if isBlank p.char then
      -- a tab never stands for indentation
      if gap.folded && p.column < indent && p.char = '\t' then none
      else scanPlain inFlow indent (gap.blank p.char) read rest
    else if isBreak p.char then scanPlain inFlow indent (gap.lineEnd p.char) read rest
    else
      -- behind space: a shallower line, a comment or a marker ends the scalar
      let spaced := gap.folded || !gap.blanks.isEmpty
      if spaced && ((!inFlow && p.column < indent) || p.char = '#' || isDocumentMarker (p :: rest))
      then some (read.reverse, gap.folded, p :: rest)
      -- between brackets a colon right before an indicator is neither sign nor text
      else if inFlow && p.char = ':' && ([',', '?', '[', ']', '\x7b', '\x7d'].any
          fun c => startsWith c rest) then .none
      else if (p.char = ':' && atSpace rest) || (inFlow && isFlowIndicator p.char) then
        some (read.reverse, gap.folded, p :: rest)
      else scanPlain inFlow indent .none (p.char :: (gap.reading ++ read)) rest

/-- The character that a one-letter escape stands for. -/
def unescape? : Char → Option Char
  | '0' => some '\x00'
  | 'a' => some '\x07'
  | 'b' => some '\x08'
  | 't' => some '\t'
  | '\t' => some '\t'
  | 'n' => some '\n'
  | 'v' => some '\x0b'
  | 'f' => some '\x0c'
  | 'r' => some '\r'
  | 'e' => some '\x1b'
  | ' ' => some ' '
  | '"' => some '"'
  | '/' => some '/'
  | '\\' => some '\\'
  | 'N' => some '\x85'
  | '_' => some '\xa0'
  | 'L' => some '\u2028'
  | 'P' => some '\u2029'
  | _ => none

/-- The number of hexadecimal digits behind an escape letter. -/
def escapeLength? : Char → Option Nat
  | 'x' => some 2
  | 'u' => some 4
  | 'U' => some 8
  | _ => none

/-- Reads on in a scalar between apostrophes, in which an apostrophe is written twice. -/
def scanSingle (gap : Gap) (read : List Char) : List Placed → Option (List Char × List Placed)
  | [] => none
  | p :: rest =>
    if isDocumentMarker (p :: rest) then none
    else if isBlank p.char then scanSingle (gap.blank p.char) read rest
    else if isBreak p.char then scanSingle (gap.lineEnd p.char) read rest
    else
      let read := gap.reading ++ read
      if p.char = '\'' then
        match rest with
        | q :: others =>
          if q.char = '\'' then scanSingle .none ('\'' :: read) others
          else some (read.reverse, q :: others)
        | [] => some (read.reverse, [])
      else scanSingle .none (p.char :: read) rest

/-- Where a double-quoted scalar stands. -/
inductive QuotedState where
  | text (gap : Gap)
  | escape
  /-- In a numeric escape of which `missing` digits are still to come. -/
  | hex (missing value : Nat)

/-- Reads on in a scalar between quotation marks. -/
def scanDouble (state : QuotedState) (read : List Char) :
    List Placed → Option (List Char × List Placed)
  | [] => none
  | p :: rest =>
    match state with
    | .text gap =>
      if isDocumentMarker (p :: rest) then none
      else if isBlank p.char then scanDouble (.text (gap.blank p.char)) read rest
      else if isBreak p.char then scanDouble (.text (gap.lineEnd p.char)) read rest
      else
        let read := gap.reading ++ read
        if p.char = '"' then some (read.reverse, rest)
        else if p.char = '\\' then scanDouble .escape read rest
        else scanDouble (.text .none) (p.char :: read) rest
    | .escape =>
      -- an escaped line end joins two lines without a blank
      if isBreak p.char then scanDouble (.text .afterEscape) read rest
      else match escapeLength? p.char with
        | some n => scanDouble (.hex n 0) read rest
        | none =>
          match unescape? p.char with
          | some c => scanDouble (.text .none) (c :: read) rest
          | none => none
    | .hex missing value =>
      match hexValue? p.char with
      | none => none
      | some d =>
        let value := value * 16 + d
        if 1 < missing then scanDouble (.hex (missing - 1) value) read rest
        else if value.isValidChar then
          scanDouble (.text .none) (Char.ofNat value :: read) rest
        else none

/-! ## §4. Block scalars. -/

/-- What happens to the line ends behind a block scalar. -/
inductive Chomping where
  | strip
  | clip
  | keep
  deriving DecidableEq

/-- The header of a block scalar: how it ends, and an indentation if one is given. -/
structure BlockHeader where
  chomping : Chomping
  indentation : Option Nat

/-- The chomping sign a text may start with. -/
def chompingSign? : List Placed → Option (Chomping × List Placed)
  | p :: rest =>
    if p.char = '-' then some (.strip, rest)
    else if p.char = '+' then some (.keep, rest)
    else none
  | [] => none

/-- The indentation digit a text may start with; a zero is refused. -/
def indentationDigit? : List Placed → Option (Option Nat × List Placed)
  | p :: rest =>
    if p.char = '0' then none
    else if p.char.isDigit then some (some (p.char.toNat - '0'.toNat), rest)
    else some (none, p :: rest)
  | [] => some (none, [])

/-- The header behind the indicator of a block scalar: sign and digit in any order. -/
def scanHeader? (text : List Placed) : Option (BlockHeader × List Placed) := do
  match chompingSign? text with
  | some (chomping, rest) =>
    let (indentation, rest) ← indentationDigit? rest
    some (⟨chomping, indentation⟩, rest)
  | none =>
    let (indentation, rest) ← indentationDigit? text
    match indentation, chompingSign? rest with
    | some _, some (chomping, rest) => some (⟨chomping, indentation⟩, rest)
    | _, _ => some (⟨.clip, indentation⟩, rest)

/-- Drops the rest of a line that holds blanks and a comment at most, with its end. -/
def finishLine? (text : List Placed) : Option (List Placed) :=
  let rest := dropBlanks text
  let rest := if startsWith '#' rest then rest.dropWhile fun p => !isBreak p.char else rest
  match rest with
  | [] => some []
  | p :: others => if isBreak p.char then some others else none

/-- Reads the empty lines before the next line of a block scalar: their line ends in reverse
order, and the deepest column reached.  Without an indentation all blanks belong to it. -/
def scanEmptyLines (indentation : Option Nat) (deepest : Nat) (breaks : List Char) :
    List Placed → Option (List Char × Nat × List Placed)
  | [] => some (breaks, deepest, [])
  | p :: rest =>
    let outside := match indentation with
      | some i => p.column < i
      | none => true
    if outside && p.char = ' ' then scanEmptyLines indentation (max deepest (p.column + 1)) breaks rest
    else if outside && p.char = '\t' then none
    else if isBreak p.char then
      scanEmptyLines indentation (max deepest p.column) (p.char :: breaks) rest
    else some (breaks, max deepest p.column, p :: rest)

/-- The state between two lines of a block scalar; characters in reverse order. -/
structure BlockText where
  read : List Char
  /-- The end of the line before. -/
  lineEnd : List Char
  /-- The ends of empty lines since. -/
  breaks : List Char
  /-- Whether the line before started with a blank. -/
  indented : Bool

/-- Reads the lines of a block scalar.  Literal scalars keep their line ends; folded ones
turn a single line end between two lines that start without blanks into a blank. -/
def scanBlockLines? (literal : Bool) (indentation : Nat) (t : BlockText) (text : List Placed) :
    Option (BlockText × List Placed) :=
  match text with
  | [] => some (t, [])
  | p :: rest =>
    if p.column ≠ indentation then some (t, p :: rest)
    else
      let indented := isBlank p.char
      let folds := !literal && t.lineEnd = ['\n'] && !t.indented && !indented
      -- the line end before this line is added only now, because folding depends on both lines
      let joint := if folds then (if t.breaks.isEmpty then [' '] else t.breaks)
        else t.breaks ++ t.lineEnd
      let line := (p :: rest).takeWhile fun q => !isBreak q.char
      let behind := (p :: rest).dropWhile fun q => !isBreak q.char
      let lineEnd := (behind.take 1).map Placed.char
      match scanEmptyLines (some indentation) 0 [] (behind.drop 1) with
      | none => none
      | some (breaks, _, next) =>
        -- always so, because scanning never moves back
        if next.length ≤ rest.length then
          scanBlockLines? literal indentation
            ⟨(line.map Placed.char).reverse ++ (joint ++ t.read), lineEnd, breaks, indented⟩ next
        else none
termination_by text.length
decreasing_by exact Nat.lt_succ_of_le ‹_›

/-- Reads a block scalar behind its indicator, inside a block of the given indentation. -/
def scanBlock? (literal : Bool) (parent : Option Nat) (text : List Placed) :
    Option (List Char × List Placed) := do
  let (header, rest) ← scanHeader? text
  let rest ← finishLine? rest
  let given := header.indentation.map fun n => parent.getD 0 + n
  let (breaks, deepest, rest) ← scanEmptyLines given 0 [] rest
  let least := match parent with
    | some column => column + 1
    | none => 1
  let indentation := given.getD (max deepest least)
  let (t, rest) ← scanBlockLines? literal indentation ⟨[], [], breaks, false⟩ rest
  let ending := match header.chomping with
    | .strip => []
    | .clip => t.lineEnd
    | .keep => t.breaks ++ t.lineEnd
  some ((ending ++ t.read).reverse, rest)

/-! ## §5. Anchors, tags and directives. -/

/-- Whether a character may stand in the name of an anchor, a handle or a directive. -/
def isWordChar (c : Char) : Bool := c.isAlphanum || c = '_' || c = '-'

/-- The characters that a text starts with and that all have a property, and the text behind
them. -/
def takeChars (p : Char → Bool) (text : List Placed) : List Char × List Placed :=
  ((text.takeWhile fun q => p q.char).map Placed.char, text.dropWhile fun q => p q.char)

/-- The name behind the sign of an anchor or of an alias. -/
def scanAnchor? (text : List Placed) : Option (String × List Placed) :=
  let (name, rest) := takeChars isWordChar text
  let ended := atSpace rest
    || ['?', ':', ',', ']', '\x7d', '%', '@', '\x60'].any fun c => startsWith c rest
  if name.isEmpty || !ended then none else some (String.ofList name, rest)

/-- Whether a character may stand in a tag.  Delimiters of flow collections may stand between
angle brackets only. -/
def isTagChar (bracketed : Bool) (c : Char) : Bool :=
  isWordChar c
    || ['%', ';', '/', '?', ':', '@', '&', '=', '+', '$', '.', '!', '~', '*', '\'', '(', ')'].contains
      c
    || (bracketed && [',', '[', ']'].contains c)

/-- The bytes of a part of a tag, in which a percent sign and two digits stand for a byte. -/
def tagBytes? : List Char → Option (List UInt8)
  | [] => some []
  | '%' :: high :: low :: rest => do
    let byte := (← hexValue? high) * 16 + (← hexValue? low)
    let bytes ← tagBytes? rest
    some (byte.toUInt8 :: bytes)
  | '%' :: _ => none
  | c :: rest => (tagBytes? rest).map (String.utf8EncodeChar c ++ ·)

/-- Reads a part of a tag, which may be empty. -/
def scanTagPart? (bracketed : Bool) (text : List Placed) : Option (String × List Placed) := do
  let (chars, rest) := takeChars (isTagChar bracketed) text
  let bytes ← tagBytes? chars
  let part ← String.fromUTF8? ⟨bytes.toArray⟩
  some (part, rest)

/-- The handle that a text starts with: an exclamation mark, perhaps a word, and perhaps
another exclamation mark. -/
def scanHandle? (text : List Placed) : Option (String × List Placed) :=
  if !startsWith '!' text then none
  else
    let (word, rest) := takeChars isWordChar (text.drop 1)
    if startsWith '!' rest then some (String.ofList ('!' :: word ++ ['!']), rest.drop 1)
    else some (String.ofList ('!' :: word), rest)

/-- Whether a handle is closed by a mark of its own. -/
def isClosedHandle (handle : String) : Bool :=
  1 < handle.length && handle.toList.getLast? == some '!'

/-- Reads a tag: its handle, which is empty where the tag is given in full, and what is behind
the handle. -/
def scanTag? (inFlow : Bool) (text : List Placed) : Option ((String × String) × List Placed) := do
  let (tag, rest) ←
    if startsWith '<' (text.drop 1) then do
      let (name, rest) ← scanTagPart? true (text.drop 2)
      if name.isEmpty || !startsWith '>' rest then none
      else some (("", name), rest.drop 1)
    else do
      let (handle, rest) ← scanHandle? text
      let (name, rest) ← scanTagPart? false rest
      if isClosedHandle handle then
        if name.isEmpty then none else some ((handle, name), rest)
      else
        -- what looked like a handle is the start of the name
        let name := String.ofList (handle.toList.drop 1) ++ name
        some (if name.isEmpty then ("", "!") else ("!", name), rest)
  if atSpace rest || (inFlow && startsWith ',' rest) then some (tag, rest) else none

/-- A directive. -/
inductive Directive where
  | version (major minor : Nat)
  /-- What a handle stands for. -/
  | handle (name expansion : String)

/-- A number of at most nine digits. -/
def scanVersionNumber? (text : List Placed) : Option (Nat × List Placed) :=
  let (digits, rest) := takeChars Char.isDigit text
  if digits.isEmpty || 9 < digits.length then none
  else some (digits.foldl (fun n c => n * 10 + (c.toNat - '0'.toNat)) 0, rest)

/-- Reads a directive behind its sign, with the end of its line. -/
def scanDirective? (text : List Placed) : Option (Directive × List Placed) := do
  let (name, rest) := takeChars isWordChar text
  if !atSpace rest then none
  let (directive, rest) ← match String.ofList name with
    | "YAML" => do
      let (major, rest) ← scanVersionNumber? (dropBlanks rest)
      if !startsWith '.' rest then none
      let (minor, rest) ← scanVersionNumber? (rest.drop 1)
      some (Directive.version major minor, rest)
    | "TAG" => do
      let (handle, rest) ← scanHandle? (dropBlanks rest)
      if !(handle = "!" || isClosedHandle handle) then none
      if !(rest.head?.any fun p => isBlank p.char) then none
      let (expansion, rest) ← scanTagPart? true (dropBlanks rest)
      if expansion.isEmpty || !atSpace rest then none
      some (Directive.handle handle expansion, rest)
    | _ => none
  let rest ← finishLine? rest
  some (directive, rest)

end AvroSwagger.Yaml
