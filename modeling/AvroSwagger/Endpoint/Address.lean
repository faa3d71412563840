import AvroSwagger.Text.Hexadecimal
import AvroSwagger.Text.Utf8

/-!
# AvroSwagger.Endpoint.Address

**The path that a requested address asks for.**

The path ends at a question mark or at a number sign.  A percent sign with two
hexadecimal digits stands for a byte, except where the byte is a percent sign, a
slash or a plus sign: decoded, these would change how the path is divided or
read, so their escapes stay as they are written.
-/

namespace AvroSwagger

open AvroSwagger.Text

/-- The byte that two digits behind a percent sign stand for; `none` if they are no digits or
the escape has to stay. -/
def escapedByte? (high low : Char) : Option UInt8 := do
  let byte := (← hexValue? high) * 16 + (← hexValue? low)
  if ['%', '/', '+'].any fun c => c.toNat = byte then none else some byte.toUInt8

/-- The bytes of a path with its escapes decoded. -/
def decodedBytes : List Char → List UInt8
  | '%' :: high :: low :: rest =>
    match escapedByte? high low with
    | some byte => byte :: decodedBytes rest
    | none => '%'.toUInt8 :: decodedBytes (high :: low :: rest)
  | c :: rest => String.utf8EncodeChar c ++ decodedBytes rest
  | [] => []

/-- What follows the first `://` of an address. -/
def behindScheme? : List Char → Option (List Char)
  | ':' :: '/' :: '/' :: rest => some rest
  | _ :: rest => behindScheme? rest
  | [] => none

/-- The path of an address as it is written.  An address with a scheme names a host before its
path, and asks for the root if it stops there; one that names only a host has no path. -/
def writtenPath (address : String) : List Char :=
  let text := address.toList.takeWhile fun c => c ≠ '?' && c ≠ '#'
  if text.head? = some '/' then text
  else match behindScheme? text with
    | none => []
    | some rest =>
      let path := rest.dropWhile (· ≠ '/')
      if path.isEmpty then ['/'] else path

/-- **The path of a requested address.** -/
def pathOf (address : String) : List Char := textOfBytes (decodedBytes (writtenPath address))

end AvroSwagger
