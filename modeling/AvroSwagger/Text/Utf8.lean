/-!
# AvroSwagger.Text.Utf8

**Bytes as text, even where they are none.**

A character is a first byte and up to three more, each of which has to lie in a
range that the bytes before it leave open.  Where a byte does not, the bytes of
the character begun are read together as U+FFFD, and the byte starts anew; a
byte that starts no character is read as U+FFFD too.
-/

namespace AvroSwagger.Text

/-- The character that stands for bytes that are no text. -/
def replacement : Char := '\ufffd'

/-- A character of which some bytes were read. -/
structure BegunChar where
  /-- How many bytes are missing. -/
  missing : Nat
  /-- The bits that were read. -/
  bits : Nat
  /-- The least byte that may come next. -/
  least : Nat
  /-- The greatest byte that may come next. -/
  greatest : Nat

/-- What a byte between characters is: a character, the start of one, or neither. -/
def startChar (byte : Nat) : List Char × Option BegunChar :=
  if byte ≤ 0x7F then ([Char.ofNat byte], none)
  else if 0xC2 ≤ byte ∧ byte ≤ 0xDF then ([], some ⟨1, byte - 0xC0, 0x80, 0xBF⟩)
  else if byte = 0xE0 then ([], some ⟨2, 0x0, 0xA0, 0xBF⟩)
  else if byte = 0xED then ([], some ⟨2, 0xD, 0x80, 0x9F⟩)
  else if 0xE1 ≤ byte ∧ byte ≤ 0xEF then ([], some ⟨2, byte - 0xE0, 0x80, 0xBF⟩)
  else if byte = 0xF0 then ([], some ⟨3, 0x0, 0x90, 0xBF⟩)
  else if 0xF1 ≤ byte ∧ byte ≤ 0xF3 then ([], some ⟨3, byte - 0xF0, 0x80, 0xBF⟩)
  else if byte = 0xF4 then ([], some ⟨3, 0x4, 0x80, 0x8F⟩)
  else ([replacement], none)

/-- Reads one byte. -/
def readByte (begun : Option BegunChar) (byte : Nat) : List Char × Option BegunChar :=
  match begun with
  | none => startChar byte
  | some b =>
    if b.least ≤ byte ∧ byte ≤ b.greatest then
      let bits := b.bits * 64 + (byte - 0x80)
      if b.missing ≤ 1 then ([Char.ofNat bits], none)
      else ([], some ⟨b.missing - 1, bits, 0x80, 0xBF⟩)
    else
      let (read, next) := startChar byte
      (replacement :: read, next)

/-- Reads bytes, the first of which may go on with a character. -/
def readBytes (begun : Option BegunChar) : List UInt8 → List Char
  | [] => if begun.isSome then [replacement] else []
  | byte :: rest =>
    let (read, next) := readByte begun byte.toNat
    read ++ readBytes next rest

/-- **The text of bytes.** -/
def textOfBytes (bytes : List UInt8) : List Char := readBytes none bytes

end AvroSwagger.Text
