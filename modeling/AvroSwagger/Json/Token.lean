import AvroSwagger.Json.Source
import AvroSwagger.Text.Hexadecimal

/-!
# AvroSwagger.Json.Token

**The tokens of a JSON text.**

The scanner reads one character at a time.  Between tokens it skips the four
blanks of the format; letters and number characters are gathered in runs, which
is safe because no two tokens of these kinds may touch each other in a text.
A string that ends properly is a token even if an escaped surrogate in it has
no partner: then it has no value.
-/

namespace AvroSwagger.Json

open AvroSwagger.Text

/-- A token; the value of a number or string is missing when the text denotes none. -/
inductive Token where
  | openArray
  | closeArray
  | openObject
  | closeObject
  | comma
  | colon
  | null
  | bool (value : Bool)
  | num (value : Option Number)
  | str (value : Option String)

namespace Token

/-! ## §1. Strings. -/

/-- The characters of a list of code points, surrogates joined in pairs; `none` if one has
no partner. -/
def joinSurrogates? : List Nat → Option (List Char)
  | [] => some []
  | [c] => if c.isValidChar then some [Char.ofNat c] else none
  | c :: d :: rest =>
    -- a high surrogate and a low one are one character
    if 0xD800 ≤ c ∧ c < 0xDC00 ∧ 0xDC00 ≤ d ∧ d < 0xE000 then
      (joinSurrogates? rest).map
        (Char.ofNat (0x10000 + (c - 0xD800) * 0x400 + (d - 0xDC00)) :: ·)
    else if c.isValidChar then (joinSurrogates? (d :: rest)).map (Char.ofNat c :: ·)
    else none

/-- The character that a one-letter escape stands for. -/
def unescape? : Char → Option Char
  | '"' => some '"'
  | '\\' => some '\\'
  | '/' => some '/'
  | 'b' => some '\x08'
  | 'f' => some '\x0c'
  | 'n' => some '\n'
  | 'r' => some '\r'
  | 't' => some '\t'
  | _ => none

/-! ## §2. The scanner. -/

/-- Where the scanner stands.  Gathered characters and code points are in reverse order. -/
inductive ScanState where
  /-- Between tokens. -/
  | between
  /-- In a run of letters. -/
  | word (gathered : List Char)
  /-- In a run of number characters. -/
  | number (gathered : List Char)
  /-- In a string. -/
  | string (gathered : List Nat)
  /-- After a backslash in a string. -/
  | escape (gathered : List Nat)
  /-- In a four-digit escape of which `missing` digits are still to come. -/
  | hex (gathered : List Nat) (missing : Nat) (value : Nat)

/-- The blanks between tokens. -/
def isBlank (c : Char) : Bool := c = ' ' || c = '\t' || c = '\n' || c = '\r'

/-- The characters of which numbers are made. -/
def isNumberChar (c : Char) : Bool :=
  c.isDigit || c = '-' || c = '+' || c = '.' || c = 'e' || c = 'E'

/-- The token of a run of letters. -/
def ofWord? (gathered : List Char) : Option Token :=
  match String.ofList gathered.reverse with
  | "null" => some .null
  | "true" => some (.bool true)
  | "false" => some (.bool false)
  | _ => none

/-- The token of a run of number characters. -/
def ofNumber? (gathered : List Char) : Option Token :=
  (Literal.ofChars? gathered.reverse).map fun l => .num (Number.ofLiteral? l)

/-- A character between tokens: the token it is, if any, and the next state. -/
def startAt? (c : Char) : Option (List Token × ScanState) :=
  if isBlank c then some ([], .between)
  else match c with
    | '[' => some ([.openArray], .between)
    | ']' => some ([.closeArray], .between)
    | '\x7b' => some ([.openObject], .between)
    | '\x7d' => some ([.closeObject], .between)
    | ',' => some ([.comma], .between)
    | ':' => some ([.colon], .between)
    | '"' => some ([], .string [])
    | c =>
      if c.isDigit || c = '-' then some ([], .number [c])
      else if c.isAlpha then some ([], .word [c])
      else none

/-- One character: the tokens that end with it, and the next state. -/
def scanChar? (state : ScanState) (c : Char) : Option (List Token × ScanState) :=
  match state with
  | .between => startAt? c
  | .word gathered =>
    if c.isAlpha then some ([], .word (c :: gathered))
    else do
      let t ← ofWord? gathered
      let (ts, next) ← startAt? c
      some (t :: ts, next)
  | .number gathered =>
    if isNumberChar c then some ([], .number (c :: gathered))
    else do
      let t ← ofNumber? gathered
      let (ts, next) ← startAt? c
      some (t :: ts, next)
  | .string gathered =>
    if c = '"' then
      some ([.str ((joinSurrogates? gathered.reverse).map String.ofList)], .between)
    else if c = '\\' then some ([], .escape gathered)
    else if c.toNat < 0x20 then none
    else some ([], .string (c.toNat :: gathered))
  | .escape gathered =>
    if c = 'u' then some ([], .hex gathered 4 0)
    else (unescape? c).map fun u => ([], .string (u.toNat :: gathered))
  | .hex gathered missing value => do
    let digit ← hexValue? c
    let value := value * 16 + digit
    if missing ≤ 1 then some ([], .string (value :: gathered))
    else some ([], .hex gathered (missing - 1) value)

/-- The tokens that the end of the text completes. -/
def finish? : ScanState → Option (List Token)
  | .between => some []
  | .word gathered => (ofWord? gathered).map ([·])
  | .number gathered => (ofNumber? gathered).map ([·])
  | _ => none

/-- The tokens of a text from a given state on, before those already found in reverse order. -/
def scanFrom? (state : ScanState) (found : List Token) : List Char → Option (List Token)
  | [] => (finish? state).map fun ts => found.reverse ++ ts
  | c :: rest =>
    match scanChar? state c with
    | none => none
    | some (ts, next) => scanFrom? next (ts.reverse ++ found) rest

/-- **The tokens of a text**, if it has only tokens and blanks. -/
def scan? (text : String) : Option (List Token) := scanFrom? .between [] text.toList

end Token

end AvroSwagger.Json
