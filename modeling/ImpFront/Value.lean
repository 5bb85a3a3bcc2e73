/-
Types and values of the language.
-/
import ImpFront.Text.Quoted

namespace ImpFront

/-- The type of a variable or an expression.  A variable whose type is not known yet is
undetermined. -/
inductive Ty where
  | undetermined
  | integer
  | boolean
  | string
  deriving DecidableEq, Repr, Inhabited

/-- The values a variable can hold.  Integers have 64 bits. -/
inductive Value where
  | integer (n : Int64)
  | boolean (b : Bool)
  | string (s : String)
  deriving DecidableEq, Repr

namespace Value

def type : Value → Ty
  | integer _ => .integer
  | boolean _ => .boolean
  | string _ => .string

/-- The text of a value: an integer in decimal, a truth value by its name, a string quoted. -/
def display : Value → String
  | integer n => toString n.toInt
  | boolean b => if b then "true" else "false"
  | string s => Text.quoted s

theorem type_ne_undetermined (v : Value) : v.type ≠ .undetermined := by
  cases v <;> simp [type]

end Value

namespace Ty

def name : Ty → String
  | undetermined => "undetermined"
  | integer => "integer"
  | boolean => "boolean"
  | string => "string"

/-- The value of a freshly declared variable of this type.  No value is undetermined, so a
variable without a type starts as the integer zero. -/
def zero : Ty → Value
  | undetermined | integer => .integer 0
  | boolean => .boolean false
  | string => .string ""

theorem type_zero {t : Ty} (h : t ≠ .undetermined) : t.zero.type = t := by
  cases t <;> simp_all [zero, Value.type]

end Ty
end ImpFront
