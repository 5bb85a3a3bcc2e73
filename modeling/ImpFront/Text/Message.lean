/-
Messages for a terminal: running text in which the names a reader looks for are quoted and can
be highlighted.

A message is kept as its pieces until it is shown.  The two forms of one message then differ
in the marks around the quoted pieces and in nothing else, whatever the pieces hold.
-/
namespace ImpFront
namespace Text

/-- Switches the terminal to bold white. -/
def highlightStart : String := "\x1b[1;97m"

def highlightEnd : String := "\x1b[0m"

/-- The text between single quotation marks, inside the highlight marks if they are wanted. -/
def quoteName (highlight : Bool) (text : String) : String :=
  let name := "‘" ++ text ++ "’"
  if highlight then highlightStart ++ name ++ highlightEnd else name

/-- A stretch of running text, or a name that is quoted. -/
inductive Piece where
  | plain (text : String)
  | name (text : String)
  deriving DecidableEq, Repr

namespace Piece

def render (highlight : Bool) : Piece → String
  | plain text => text
  | name text => quoteName highlight text

end Piece

abbrev Message := List Piece

namespace Message

def render (highlight : Bool) (message : Message) : String :=
  String.join (message.map (Piece.render highlight))

theorem render_nil (highlight : Bool) : render highlight [] = "" := rfl

theorem render_cons (highlight : Bool) (piece : Piece) (rest : Message) :
    render highlight (piece :: rest) = piece.render highlight ++ render highlight rest := by
  rw [render, List.map_cons, String.join_cons]
  rfl

end Message
end Text
end ImpFront
