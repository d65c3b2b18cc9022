/-
This file decodes UTF-8 in which some bytes may be malformed. Every maximal malformed part becomes
one replacement character, so decoding always succeeds.
-/

namespace LintRepair.Text

/-- The character that stands for malformed bytes. -/
def replacementCharacter : Char := '\uFFFD'

/-- A character of several bytes whose last bytes are still to come. The next byte has to lie
between `lowest` and `highest`. -/
structure PartialCharacter where
  missing : Nat
  value : Nat
  lowest : UInt8
  highest : UInt8
deriving Repr, DecidableEq

/-- A byte at the start of a character either is a character, or begins a longer one, or is
malformed. The bounds on the second byte rule out overlong forms, surrogates and values past the
last code point. -/
def leadByte (byte : UInt8) : List Char × Option PartialCharacter :=
  if byte < 0x80 then ([Char.ofNat byte.toNat], none)
  else if byte < 0xC2 then ([replacementCharacter], none)
  else if byte < 0xE0 then ([], some ⟨1, byte.toNat - 0xC0, 0x80, 0xBF⟩)
  else if byte = 0xE0 then ([], some ⟨2, 0, 0xA0, 0xBF⟩)
  else if byte = 0xED then ([], some ⟨2, 0xD, 0x80, 0x9F⟩)
  else if byte < 0xF0 then ([], some ⟨2, byte.toNat - 0xE0, 0x80, 0xBF⟩)
  else if byte = 0xF0 then ([], some ⟨3, 0, 0x90, 0xBF⟩)
  else if byte < 0xF4 then ([], some ⟨3, byte.toNat - 0xF0, 0x80, 0xBF⟩)
  else if byte = 0xF4 then ([], some ⟨3, 4, 0x80, 0x8F⟩)
  else ([replacementCharacter], none)

/-- One byte either continues the character begun before it or ends it as malformed and then
starts anew. -/
def decodeByte (begun : Option PartialCharacter) (byte : UInt8) :
    List Char × Option PartialCharacter :=
  match begun with
  | none => leadByte byte
  | some character =>
    if character.lowest ≤ byte && byte ≤ character.highest then
      let value := character.value * 64 + (byte.toNat - 0x80)
      if character.missing ≤ 1 then ([Char.ofNat value], none)
      else ([], some ⟨character.missing - 1, value, 0x80, 0xBF⟩)
    else
      let (decoded, next) := leadByte byte
      (replacementCharacter :: decoded, next)

/-- The bytes behind a character that may have been begun before them. -/
def decodeFrom : Option PartialCharacter → List UInt8 → List Char
  | none, [] => []
  | some _, [] => [replacementCharacter]
  | begun, byte :: bytes =>
    let (decoded, next) := decodeByte begun byte
    decoded ++ decodeFrom next bytes

def decodeLossily (bytes : List UInt8) : List Char :=
  decodeFrom none bytes

end LintRepair.Text
