/-
This file holds the text of the shell, which is handled byte by byte.
-/

import LintRepair.Path
import LintRepair.Text.LossyDecoding

namespace LintRepair.Shell

/-- Every byte stands as the character of its number. -/
abbrev Octets := List Char

def octetsOfBytes (bytes : List UInt8) : Octets :=
  bytes.map fun byte => Char.ofNat byte.toNat

def octetsOf (text : String) : Octets :=
  octetsOfBytes text.toUTF8.data.toList

def bytesOf (octets : Octets) : List UInt8 :=
  octets.map fun octet => UInt8.ofNat octet.toNat

/-- The text that the bytes stand for. -/
def textOf (octets : Octets) : String :=
  String.ofList (Text.decodeLossily (bytesOf octets))

def pathOf (octets : Octets) : Path :=
  ⟨textOf octets⟩

def decimal (value : Nat) : Octets :=
  (toString value).toList

def integer (value : Int) : Octets :=
  (toString value).toList

/-! Classes of characters. -/

def isNameStart (octet : Char) : Bool :=
  octet.isAlpha || octet == '_'

def isNameCharacter (octet : Char) : Bool :=
  octet.isAlphanum || octet == '_'

/-- A name of a variable or a function. -/
def isName (word : Octets) : Bool :=
  match word with
  | [] => false
  | first :: rest => isNameStart first && rest.all isNameCharacter

/-- White space between words of a script. -/
def isBlank (octet : Char) : Bool :=
  octet == ' ' || octet == '\t'

/-- All white space. -/
def isSpace (octet : Char) : Bool :=
  [' ', '\t', '\n', '\x0b', '\x0c', '\r'].contains octet

end LintRepair.Shell
