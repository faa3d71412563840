import AvroSwagger.Yaml.Scalar
import AvroSwagger.Text.Hexadecimal

/-!
# AvroSwagger.Yaml.Writer

**A JSON value as a YAML document in block style.**

Lists under a key are not indented; nested collections start on the line of
their dash.  A string is written plain where it reads back as that string, else
between apostrophes, else between quotation marks; a string with a line feed is
a literal block two columns deeper than the collection around it.  Keys follow
the same rule, and a key of more than 128 bytes or of several lines is announced
by a question mark.
-/

namespace AvroSwagger.Yaml

open AvroSwagger.Decimal AvroSwagger.Text

/-! ## §1. What a string allows. -/

/-- Whether a character ends a line inside a written scalar. -/
def endsLine (c : Char) : Bool :=
  c = '\n' || c = '\r' || c = '\x85' || c = '\u2028' || c = '\u2029'

/-- Whether a character can be written without an escape. -/
def isPrintable (c : Char) : Bool :=
  c = '\n' || (0x20 ≤ c.toNat && c.toNat ≤ 0x7E)
    || (0xA0 ≤ c.toNat && c.toNat ≤ 0xD7FF)
    || (0xE000 ≤ c.toNat && c.toNat ≤ 0xFFFD && c.toNat ≠ 0xFEFF)
    || 0x10000 ≤ c.toNat

/-- Whether a text ends or goes on with a blank or a line end. -/
def spaceNext : List Char → Bool
  | [] => true
  | c :: _ => c = ' ' || c = '\t' || endsLine c

/-- The characters that mean something at the start of a scalar. -/
def leadingIndicators : List Char :=
  ['#', ',', '[', ']', '\x7b', '\x7d', '&', '*', '!', '|', '>', '\'', '"', '%', '@', '\x60']

/-- Whether a text, behind its first character, has a colon before space or a number sign
after space. -/
def hasInnerIndicator (spaceBefore : Bool) : List Char → Bool
  | [] => false
  | c :: rest =>
    (c = ':' && spaceNext rest) || (c = '#' && spaceBefore)
      || hasInnerIndicator (c = ' ' || c = '\t' || endsLine c) rest

/-- Whether a text would mean something else if it were written plain. -/
def hasIndicator : List Char → Bool
  | [] => false
  | '-' :: '-' :: '-' :: _ => true
  | '.' :: '.' :: '.' :: _ => true
  | c :: rest =>
    leadingIndicators.contains c
      || ((c = '?' || c = ':' || c = '-') && spaceNext rest)
      || hasInnerIndicator (c = ' ' || c = '\t' || endsLine c) rest

/-- Whether two neighbouring characters satisfy a condition. -/
def anyNeighbours (condition : Char → Char → Bool) : List Char → Bool
  | c :: d :: rest => condition c d || anyNeighbours condition (d :: rest)
  | _ => false

/-- The ways of writing a scalar that keep its text. -/
structure Allowance where
  plain : Bool
  single : Bool
  literal : Bool

/-- What a text allows. -/
def allowance (text : List Char) : Allowance :=
  let isEdge (c : Char) : Bool := c = ' ' || endsLine c
  let edges := text.head?.any isEdge || text.getLast?.any isEdge
  let breakBeforeSpace := anyNeighbours (fun c d => endsLine c && d = ' ') text
  let spaceBeforeBreak := anyNeighbours (fun c d => c = ' ' && endsLine d) text
  let ordinary := text.all isPrintable && !spaceBeforeBreak
  { plain := ordinary && !breakBeforeSpace && !edges && !text.any endsLine && !hasIndicator text
    single := ordinary && !breakBeforeSpace
    literal := ordinary && text.getLast? ≠ some ' ' && !text.isEmpty }

/-! ## §2. The styles. -/

/-- A number in a fixed count of hexadecimal digits, in upper case. -/
def upperHex : Nat → Nat → List Char
  | 0, _ => []
  | width + 1, n => upperHex width (n / 16) ++ [(hexDigit n).toUpper]

/-- A character between quotation marks. -/
def escapeChar (c : Char) : List Char :=
  if c = '"' then ['\\', '"']
  else if c = '\\' then ['\\', '\\']
  else if isPrintable c && !endsLine c then [c]
  else match c with
    | '\x00' => ['\\', '0']
    | '\x07' => ['\\', 'a']
    | '\x08' => ['\\', 'b']
    | '\t' => ['\\', 't']
    | '\n' => ['\\', 'n']
    | '\x0b' => ['\\', 'v']
    | '\x0c' => ['\\', 'f']
    | '\r' => ['\\', 'r']
    | '\x1b' => ['\\', 'e']
    | '\x85' => ['\\', 'N']
    | '\u2028' => ['\\', 'L']
    | '\u2029' => ['\\', 'P']
    | c =>
      if c.toNat ≤ 0xFF then '\\' :: 'x' :: upperHex 2 c.toNat
      else if c.toNat ≤ 0xFFFF then '\\' :: 'u' :: upperHex 4 c.toNat
      else '\\' :: 'U' :: upperHex 8 c.toNat

/-- A text between quotation marks. -/
def doubleQuoted (text : List Char) : List Char :=
  '"' :: text.flatMap escapeChar ++ ['"']

/-- A text whose lines, empty ones apart, start with `padding`; `atStart` says whether the
text starts on a line of its own. -/
def padLines (padding : List Char) (atStart : Bool) : List Char → List Char
  | [] => []
  | c :: rest =>
    if endsLine c then c :: padLines padding true rest
    else (if atStart then padding else []) ++ c :: padLines padding false rest

/-- A text between apostrophes; an apostrophe is written twice.  Where the text ends with a
line end, the closing apostrophe stands behind the padding of a line of its own. -/
def singleQuoted (padding : List Char) (text : List Char) : List Char :=
  '\'' :: padLines padding false (text.flatMap fun c => if c = '\'' then ['\'', '\''] else [c])
    ++ (if text.getLast?.any endsLine then padding else []) ++ ['\'']

/-- The mark for an indentation that the first line would not show. -/
def indentationMark : List Char → List Char
  | c :: _ => if c = ' ' || endsLine c then ['2'] else []
  | [] => []

/-- The mark for the line ends behind a literal block: none for one, `-` for none, `+` for
more, or for a block of nothing else. -/
def chompingMark (text : List Char) : List Char :=
  match text.reverse with
  | c :: rest =>
    if !endsLine c then ['-']
    else match rest with
      | [] => ['+']
      | d :: _ => if endsLine d then ['+'] else []
  | [] => ['-']

/-- A literal block. -/
def literalBlock (padding : List Char) (text : List Char) : List Char :=
  '|' :: indentationMark text ++ chompingMark text ++ '\n' :: padLines padding true text

/-- The blanks of a column. -/
def blanks (column : Nat) : List Char := List.replicate column ' '

/-- Whether an unquoted scalar would be read as that string. -/
def readsAsText (s : String) : Bool :=
  match meaning s with
  | .text => !isPaddedDigits s.toList
  | _ => false

/-- **A string** inside a collection at the given column. -/
def stringText (column : Nat) (s : String) : List Char :=
  let text := s.toList
  let allowed := allowance text
  let padding := blanks (column + 2)
  if text.contains '\n' then
    if allowed.literal then literalBlock padding text else doubleQuoted text
  else if allowed.plain && readsAsText s then text
  else if allowed.single then singleQuoted padding text
  else doubleQuoted text

/-! ## §3. Documents. -/

/-- YAML texts write exponents −5 to 15 positionally and leave the plus sign out. -/
def floatStyle : FloatStyle := ⟨-5, 15, false⟩

/-- A scalar that has been written, with the end of its line. -/
def finishLine (text : List Char) : List Char :=
  match text.getLast? with
  | some c => if endsLine c then text else text ++ ['\n']
  | none => ['\n']

/-- Whether a key can stand on its line without announcement. -/
def isSimpleKey (key : String) : Bool := key.utf8ByteSize ≤ 128 && !key.toList.any endsLine

/-- The blanks in front of an entry, which the first entry of a nested collection does not
need because the line is already there. -/
def lead (column : Nat) (isFirst : Bool) : List Char := if isFirst then [] else blanks column

/-- The text of a value that is written in one piece; `none` for a collection with entries. -/
def pieceText? (column : Nat) : Json → Option (List Char)
  | .null => some "null".toList
  | .bool b => some (if b then "true".toList else "false".toList)
  | .num n => some (n.text floatStyle).toList
  | .str s => some (stringText column s)
  | .arr [] => some ['[', ']']
  | .obj [] => some ['\x7b', '\x7d']
  | .arr (_ :: _) => none
  | .obj (_ :: _) => none

mutual

/-- An entry behind a dash or a colon on its own, inside a collection at the given column;
a nested collection starts on the same line. -/
def entryText (column : Nat) : Json → List Char
  | .arr (v :: rest) => itemTexts (column + 2) true (v :: rest)
  | .obj (m :: rest) => memberTexts (column + 2) true (m :: rest)
  | v => finishLine ((pieceText? column v).getD [])

/-- The items of a list at the given column. -/
def itemTexts (column : Nat) (isFirst : Bool) : List Json → List Char
  | [] => []
  | v :: rest =>
    lead column isFirst ++ '-' :: ' ' :: entryText column v ++ itemTexts column false rest

/-- The value behind the colon of a key, inside a mapping at the given column; a nested
collection starts on the next line. -/
def valueText (column : Nat) : Json → List Char
  | .arr (v :: rest) => '\n' :: itemTexts column false (v :: rest)
  | .obj (m :: rest) => '\n' :: memberTexts (column + 2) false (m :: rest)
  | v => ' ' :: finishLine ((pieceText? column v).getD [])

/-- The members of a mapping at the given column. -/
def memberTexts (column : Nat) (isFirst : Bool) : List (String × Json) → List Char
  | [] => []
  | (key, v) :: rest =>
    let keyText := stringText column key
    lead column isFirst
      ++ (if isSimpleKey key then keyText ++ ':' :: valueText column v
        else '?' :: ' ' :: finishLine keyText ++ blanks column ++ ':' :: ' ' :: entryText column v)
      ++ memberTexts column false rest

end

/-- **The YAML document of a value.** -/
def document (v : Json) : String :=
  String.ofList (match v with
    | .arr (item :: rest) => itemTexts 0 false (item :: rest)
    | .obj (m :: rest) => memberTexts 0 false (m :: rest)
    | v => finishLine ((pieceText? 0 v).getD []))

end AvroSwagger.Yaml
