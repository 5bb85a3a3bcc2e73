/-
Positions in a source text.
-/
namespace ImpFront

/-- Where a construct stands: line, column and file. -/
structure Position where
  line : UInt32
  column : UInt32
  file : String
  deriving DecidableEq, Repr, Inhabited

namespace Position

/-- The position of what stands in no source text. -/
def null : Position := { line := 0, column := 0, file := "<null>" }

def display (p : Position) : String :=
  p.file ++ ":" ++ toString p.line.toNat ++ ":" ++ toString p.column.toNat

end Position
end ImpFront
