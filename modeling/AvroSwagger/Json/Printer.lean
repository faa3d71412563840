import AvroSwagger.Json.Basic
import AvroSwagger.Text.Hexadecimal

/-!
# AvroSwagger.Json.Printer

**The two written forms of a JSON value: compact, and indented by two spaces.**

In both, members stand in their own order.  Strings escape the quotation mark,
the backslash and the control characters below U+0020 and nothing else.
-/

namespace AvroSwagger.Json

open AvroSwagger.Text

/-! ## §1. Strings. -/

/-- How one character is written inside a string. -/
def escapeChar (c : Char) : List Char :=
  if c = '"' then ['\\', '"']
  else if c = '\\' then ['\\', '\\']
  else if c = '\n' then ['\\', 'n']
  else if c = '\r' then ['\\', 'r']
  else if c = '\t' then ['\\', 't']
  else if c = '\x08' then ['\\', 'b']
  else if c = '\x0c' then ['\\', 'f']
  else if c.toNat < 0x20 then ['\\', 'u', '0', '0', hexDigit (c.toNat / 16), hexDigit c.toNat]
  else [c]

/-- A string between quotation marks. -/
def quoted (s : String) : String :=
  String.ofList ('"' :: s.toList.flatMap escapeChar ++ ['"'])

/-! ## §2. The compact form. -/

mutual

/-- The compact text of a value: no blanks at all. -/
def compact : Json → String
  | .null => "null"
  | .bool b => if b then "true" else "false"
  | .num n => n.text floatStyle
  | .str s => quoted s
  | .arr items => "[" ++ ",".intercalate (compactItems items) ++ "]"
  | .obj members => "\x7b" ++ ",".intercalate (compactMembers members) ++ "\x7d"

/-- The compact texts of the items. -/
def compactItems : List Json → List String
  | [] => []
  | v :: rest => v.compact :: compactItems rest

/-- The compact texts of the members. -/
def compactMembers : List (String × Json) → List String
  | [] => []
  | (k, v) :: rest => (quoted k ++ ":" ++ v.compact) :: compactMembers rest

end

/-! ## §3. The indented form. -/

/-- A line break and the blanks of an indentation depth. -/
def newline (depth : Nat) : String := String.ofList ('\n' :: List.replicate (2 * depth) ' ')

/-- Entries on lines of their own between two brackets; an empty container stays on one line. -/
def bracketed (opening closing : String) (depth : Nat) (entries : List String) : String :=
  if entries.isEmpty then opening ++ closing
  else opening ++ newline (depth + 1) ++ ("," ++ newline (depth + 1)).intercalate entries
    ++ newline depth ++ closing

mutual

/-- The indented text of a value that stands at the given depth. -/
def indented (depth : Nat) : Json → String
  | .arr items => bracketed "[" "]" depth (indentedItems (depth + 1) items)
  | .obj members => bracketed "\x7b" "\x7d" depth (indentedMembers (depth + 1) members)
  | .null => "null"
  | .bool b => if b then "true" else "false"
  | .num n => n.text floatStyle
  | .str s => quoted s

/-- The indented texts of the items. -/
def indentedItems (depth : Nat) : List Json → List String
  | [] => []
  | v :: rest => v.indented depth :: indentedItems depth rest

/-- The indented texts of the members. -/
def indentedMembers (depth : Nat) : List (String × Json) → List String
  | [] => []
  | (k, v) :: rest => (quoted k ++ ": " ++ v.indented depth) :: indentedMembers depth rest

end

/-- **The indented text of a document**, without a final line break. -/
def pretty (v : Json) : String := indented 0 v

end AvroSwagger.Json
