/-
Names that can be assigned to.

Reserved words and numbers name no variable, so they are refused as targets before anything is
looked up.
-/
import ImpFront.Diagnostic

namespace ImpFront
namespace Target

/-- The words with a meaning of their own in a program, in alphabetical order. -/
def reservedWords : List String :=
  ["and", "begin", "boolean", "do", "else", "end", "false", "for", "if", "input", "integer",
    "not", "or", "print", "program", "string", "then", "to", "true", "var", "while"]

def isReservedWord (name : String) : Bool :=
  reservedWords.contains name

/-- Whether a text is a nonempty run of the digits 0 to 9.  Digits of other scripts do not
count. -/
def isDigits (text : List Char) : Bool :=
  !text.isEmpty && text.all Char.isDigit

/-- Whether a text is a number: digits, or digits, one point, and digits. -/
def isNumber (name : String) : Bool :=
  let whole := name.toList.takeWhile (· ≠ '.')
  match name.toList.dropWhile (· ≠ '.') with
  | [] => isDigits whole
  | _ :: fraction => isDigits whole && isDigits fraction

def fault? (name : String) : Option Fault :=
  if isReservedWord name || isNumber name then some (.reservedTarget name) else none

def check (name : String) (pos : Position) : Option Diagnostic :=
  (fault? name).map fun fault => ⟨fault, pos⟩

end Target
end ImpFront
