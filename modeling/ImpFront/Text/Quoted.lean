/-
Quoted text: a string between double quotes, on one line, with every character that a reader
could not see or could misread written as an escape.

The rule takes the set of hidden characters as a parameter.  Its shape does not depend on
that set: an escape starts with a backslash, and a backslash of the text is itself escaped.
-/
import ImpFront.Text.Hidden

namespace ImpFront
namespace Text

/-- A character by its code point: `\u` and the hexadecimal digits between braces, lower case
and without leading zeros. -/
def codePointEscape (c : Char) : List Char :=
  ['\\', 'u', '\x7b'] ++ Nat.toDigits 16 c.toNat ++ ['\x7d']

/-- The written form of one character.  A single quote needs no escape, since the text stands
between double quotes. -/
def escape (hidden : Char → Bool) (c : Char) : List Char :=
  if c = '\x00' then ['\\', '0']
  else if c = '\t' then ['\\', 't']
  else if c = '\r' then ['\\', 'r']
  else if c = '\n' then ['\\', 'n']
  else if c = '"' then ['\\', '"']
  else if c = '\\' then ['\\', '\\']
  else if hidden c then codePointEscape c
  else [c]

def escapeAll (hidden : Char → Bool) (text : List Char) : List Char :=
  text.flatMap (escape hidden)

def encode (hidden : Char → Bool) (text : List Char) : List Char :=
  '"' :: escapeAll hidden text ++ ['"']

/-- The quoted form of a string, with the hidden characters of `isHidden`. -/
def quoted (text : String) : String :=
  String.ofList (encode isHidden text.toList)

theorem escapeAll_nil (hidden : Char → Bool) : escapeAll hidden [] = [] := rfl

theorem escapeAll_cons (hidden : Char → Bool) (c : Char) (text : List Char) :
    escapeAll hidden (c :: text) = escape hidden c ++ escapeAll hidden text := rfl

theorem toList_quoted (text : String) : (quoted text).toList = encode isHidden text.toList :=
  String.toList_ofList

end Text
end ImpFront
