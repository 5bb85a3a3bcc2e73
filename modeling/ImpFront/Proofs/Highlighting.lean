/-
What highlighting adds to a text.

A text with highlighting is read from left to right into marks and single characters (`scan`).  A
mark starts with the escape character and has no other one, so in a text whose names hold no escape
character the marks are those that the rendering put there, and a name that looks like the rest of
a mark is no part of one (`scanFrom_flatMap_written`).  Deleting marks is reading them and leaving
them out (`deleteMarks_ofTokens`).

The theorem this file exists for is `Diagnostic.addsMarks_render`.  It also says that a diagnostic is
shown on three lines, where no name holds a line feed.
-/
import ImpFront.Diagnostic
import ImpFront.Proofs.Displays

namespace ImpFront
namespace Text

/-! ## Marks -/

/-- The marks that start and stop the highlighting. -/
inductive Mark where
  | start
  | stop
  deriving DecidableEq, Repr

namespace Mark

def text : Mark → List Char
  | start => highlightStart.toList
  | stop => highlightEnd.toList

def both : List Mark := [start, stop]

theorem exists_text_eq_cons (m : Mark) : ∃ rest, m.text = '\x1b' :: rest ∧ '\x1b' ∉ rest := by
  cases m with
  | start => exact ⟨"[1;97m".toList, rfl, by decide⟩
  | stop => exact ⟨"[0m".toList, rfl, by decide⟩

/-- The two marks part at their third character. -/
theorem eq_of_isPrefixOf {m m' : Mark} {rest : List Char}
    (h : m.text.isPrefixOf (m'.text ++ rest) = true) : m = m' := by
  have hstart : start.text = ['\x1b', '[', '1', ';', '9', '7', 'm'] := rfl
  have hstop : stop.text = ['\x1b', '[', '0', 'm'] := rfl
  cases m with
  | start =>
    cases m' with
    | start => rfl
    | stop => simp [hstart, hstop] at h
  | stop =>
    cases m' with
    | start => simp [hstart, hstop] at h
    | stop => rfl

end Mark

/-- What a text with highlighting is read into. -/
inductive Token where
  | mark (m : Mark)
  | char (c : Char)
  deriving DecidableEq, Repr

namespace Token

def written : Token → List Char
  | mark m => m.text
  | char c => [c]

def char? : Token → Option Char
  | mark _ => none
  | char c => some c

def isMarkOf (marks : List Mark) : Token → Bool
  | mark m => m ∈ marks
  | char _ => false

/-- What a reader who looks for certain marks takes a token for.  Any other mark is a run of
characters. -/
def seen (marks : List Mark) : Token → List Token
  | mark m => if m ∈ marks then [mark m] else m.text.map char
  | char c => [char c]

end Token

/-- Read a text from left to right and look for certain marks.  The first `skip` characters belong
to a mark that has been read. -/
def scanFrom (marks : List Mark) : Nat → List Char → List Token
  | _, [] => []
  | skip + 1, _ :: rest => scanFrom marks skip rest
  | 0, c :: rest =>
    match marks.find? fun m => m.text.isPrefixOf (c :: rest) with
    | some m => .mark m :: scanFrom marks (m.text.length - 1) rest
    | none => .char c :: scanFrom marks 0 rest

def scan (marks : List Mark) (text : String) : List Token := scanFrom marks 0 text.toList

/-- The text without its occurrences of certain marks. -/
def deleteMarks (marks : List Mark) (text : String) : String :=
  String.ofList ((scan marks text).filterMap Token.char?)

def ofTokens (tokens : List Token) : String := String.ofList (tokens.flatMap Token.written)

/-! ## Reading marks -/

section Scan

variable {marks : List Mark}

theorem scanFrom_skip (text rest : List Char) :
    scanFrom marks text.length (text ++ rest) = scanFrom marks 0 rest := by
  induction text with
  | nil => rfl
  | cons c text ih => exact ih

theorem scanFrom_char {c : Char} (hc : c ≠ '\x1b') (rest : List Char) :
    scanFrom marks 0 (c :: rest) = .char c :: scanFrom marks 0 rest := by
  have hnone : (marks.find? fun m => m.text.isPrefixOf (c :: rest)) = none := by
    refine List.find?_eq_none.mpr fun m _ h => ?_
    obtain ⟨tail, htail, -⟩ := m.exists_text_eq_cons
    rw [htail, List.isPrefixOf_cons_cons, Bool.and_eq_true, beq_iff_eq] at h
    exact hc h.1.symm
  rw [scanFrom, hnone]

theorem scanFrom_chars {text : List Char} (htext : '\x1b' ∉ text) (rest : List Char) :
    scanFrom marks 0 (text ++ rest) = text.map .char ++ scanFrom marks 0 rest := by
  induction text with
  | nil => rfl
  | cons c text ih =>
    have hc : c ≠ '\x1b' := fun heq => htext (heq ▸ List.mem_cons_self)
    rw [List.cons_append, scanFrom_char hc, ih fun hmem => htext (List.mem_cons_of_mem c hmem)]
    rfl

/-- At a mark no other mark is found. -/
theorem find?_mark (m : Mark) (rest : List Char) :
    (marks.find? fun m' => m'.text.isPrefixOf (m.text ++ rest)) =
      if m ∈ marks then some m else none := by
  have hself : m.text.isPrefixOf (m.text ++ rest) = true :=
    List.isPrefixOf_iff_prefix.mpr (List.prefix_append _ _)
  split
  · rename_i hm
    cases h : marks.find? fun m' => m'.text.isPrefixOf (m.text ++ rest) with
    | none => exact absurd hself (List.find?_eq_none.mp h m hm)
    | some m' =>
      have hprefix := List.find?_some h
      rw [Mark.eq_of_isPrefixOf hprefix]
  · rename_i hm
    refine List.find?_eq_none.mpr fun m' hm' h => ?_
    exact hm (Mark.eq_of_isPrefixOf h ▸ hm')

theorem scanFrom_mark (m : Mark) (rest : List Char) :
    scanFrom marks 0 (m.text ++ rest) = (Token.mark m).seen marks ++ scanFrom marks 0 rest := by
  have hfind : (marks.find? fun m' => m'.text.isPrefixOf (m.text ++ rest)) =
      if m ∈ marks then some m else none := find?_mark m rest
  obtain ⟨tail, htail, hescape⟩ := m.exists_text_eq_cons
  rw [Token.seen]
  rw [htail, List.cons_append] at hfind ⊢
  rw [scanFrom, hfind]
  -- A mark that is not looked for is read as characters, and no other mark starts inside of it.
  by_cases hm : m ∈ marks
  · rw [if_pos hm, if_pos hm]
    have hskip : scanFrom marks tail.length (tail ++ rest) = scanFrom marks 0 rest :=
      scanFrom_skip tail rest
    simp [htail, hskip]
  · rw [if_neg hm, if_neg hm]
    simp [scanFrom_chars hescape]

/-- A reader finds the marks of a text and takes nothing else for one. -/
theorem scanFrom_flatMap_written {tokens : List Token}
    (h : ∀ c, Token.char c ∈ tokens → c ≠ '\x1b') :
    scanFrom marks 0 (tokens.flatMap Token.written) = tokens.flatMap (Token.seen marks) := by
  induction tokens with
  | nil => rfl
  | cons token tokens ih =>
    have htokens := ih fun c hc => h c (List.mem_cons_of_mem token hc)
    rw [List.flatMap_cons, List.flatMap_cons]
    cases token with
    | mark m => rw [Token.written, scanFrom_mark, htokens]
    | char c =>
      rw [Token.written, List.singleton_append, scanFrom_char (h c List.mem_cons_self), htokens]
      rfl

theorem filterMap_char?_seen (tokens : List Token) :
    (tokens.flatMap (Token.seen marks)).filterMap Token.char? =
      (tokens.filter fun token => !token.isMarkOf marks).flatMap Token.written := by
  induction tokens with
  | nil => rfl
  | cons token tokens ih =>
    rw [List.flatMap_cons, List.filterMap_append, ih]
    cases token with
    | mark m =>
      by_cases hm : m ∈ marks
      · simp [Token.seen, Token.isMarkOf, Token.char?, hm]
      · have hchars : (m.text.map Token.char).filterMap Token.char? = m.text := by
          rw [List.filterMap_map]
          exact List.filterMap_some
        simp [Token.seen, Token.isMarkOf, Token.written, hm, hchars]
    | char c => simp [Token.seen, Token.isMarkOf, Token.written, Token.char?]

theorem deleteMarks_ofTokens {tokens : List Token}
    (h : ∀ c, Token.char c ∈ tokens → c ≠ '\x1b') :
    deleteMarks marks (ofTokens tokens) =
      ofTokens (tokens.filter fun token => !token.isMarkOf marks) := by
  rw [deleteMarks, scan, ofTokens, String.toList_ofList, scanFrom_flatMap_written h,
    filterMap_char?_seen, ofTokens]

theorem scan_both_ofTokens {tokens : List Token}
    (h : ∀ c, Token.char c ∈ tokens → c ≠ '\x1b') : scan Mark.both (ofTokens tokens) = tokens := by
  have hseen : Token.seen Mark.both = fun token => [token] := by
    funext token
    cases token with
    | mark m => cases m <;> rfl
    | char c => rfl
  rw [scan, ofTokens, String.toList_ofList, scanFrom_flatMap_written h, hseen]
  simp

end Scan

/-! ## Messages -/

/-- One text is the other one with marks put in.  Which of the marks are deleted first makes no
difference. -/
structure AddsMarks (plain marked : String) : Prop where
  together : deleteMarks Mark.both marked = plain
  startFirst : deleteMarks [.stop] (deleteMarks [.start] marked) = plain
  stopFirst : deleteMarks [.start] (deleteMarks [.stop] marked) = plain

/-- Marks and characters in which each mark that starts is followed by a name in quotation marks
and then by a mark that stops, with the names in their order and no other mark. -/
inductive Encloses : List Token → List String → Prop where
  | plain (text : List Char) : Encloses (text.map .char) []
  | name (text : List Char) {name : String} {tokens : List Token} {names : List String}
      (rest : Encloses tokens names) :
      Encloses (text.map .char ++ .mark .start :: (("‘" ++ name ++ "’").toList.map .char ++
        .mark .stop :: tokens)) (name :: names)

theorem Encloses.append_left {tokens : List Token} {names : List String}
    (h : Encloses tokens names) (text : List Char) :
    Encloses (text.map .char ++ tokens) names := by
  cases h with
  | plain others =>
    rw [← List.map_append]
    exact .plain _
  | name others rest =>
    rw [← List.append_assoc, ← List.map_append]
    exact .name _ rest

namespace Piece

def text : Piece → String
  | plain text | name text => text

def tokens : Piece → List Token
  | plain text => text.toList.map .char
  | name text => .mark .start :: (("‘" ++ text ++ "’").toList.map .char ++ [.mark .stop])

theorem flatMap_written_char (text : List Char) :
    (text.map Token.char).flatMap Token.written = text := by
  rw [List.flatMap_map]
  exact List.flatMap_singleton' text

theorem toList_render_true (piece : Piece) :
    (piece.render true).toList = piece.tokens.flatMap Token.written := by
  cases piece with
  | plain text => exact (flatMap_written_char text.toList).symm
  | name text =>
    rw [tokens, List.flatMap_cons, List.flatMap_append, flatMap_written_char]
    simp [render, quoteName, Token.written, Mark.text]

theorem toList_render_false (piece : Piece) : (piece.render false).toList =
    (piece.tokens.filter fun token => !token.isMarkOf Mark.both).flatMap Token.written := by
  have hchars : ∀ text : List Char,
      (text.map Token.char).filter (fun token => !token.isMarkOf Mark.both) =
        text.map Token.char := by
    intro text
    refine List.filter_eq_self.mpr fun token htoken => ?_
    obtain ⟨c, -, rfl⟩ := List.mem_map.mp htoken
    rfl
  cases piece with
  | plain text =>
    rw [tokens, hchars, flatMap_written_char]
    rfl
  | name text =>
    have hquoted : (tokens (name text)).filter (fun token => !token.isMarkOf Mark.both) =
        ("‘" ++ text ++ "’").toList.map Token.char := by
      rw [tokens, List.filter_cons_of_neg (by decide), List.filter_append, hchars,
        List.filter_cons_of_neg (by decide), List.filter_nil, List.append_nil]
    rw [hquoted, flatMap_written_char]
    rfl

end Piece

namespace Message

def tokens (message : Message) : List Token := message.flatMap Piece.tokens

/-- The names that a message quotes. -/
def names : Message → List String
  | [] => []
  | .plain _ :: rest => names rest
  | .name text :: rest => text :: names rest

theorem render_true (message : Message) : message.render true = ofTokens message.tokens := by
  apply String.toList_inj.mp
  rw [render, String.toList_join, List.flatMap_map, ofTokens, String.toList_ofList, tokens,
    List.flatMap_assoc]
  exact List.flatMap_congr fun piece _ => piece.toList_render_true

theorem render_false (message : Message) : message.render false =
    ofTokens (message.tokens.filter fun token => !token.isMarkOf Mark.both) := by
  apply String.toList_inj.mp
  rw [render, String.toList_join, List.flatMap_map, ofTokens, String.toList_ofList, tokens,
    List.filter_flatMap, List.flatMap_assoc]
  exact List.flatMap_congr fun piece _ => piece.toList_render_false

variable {message : Message}

theorem escape_not_mem_tokens (h : ∀ piece ∈ message, '\x1b' ∉ piece.text.toList) :
    ∀ c, Token.char c ∈ message.tokens → c ≠ '\x1b' := by
  rintro _ hmem rfl
  obtain ⟨piece, hpiece, htoken⟩ := List.mem_flatMap.mp hmem
  have htext := h piece hpiece
  cases piece with
  | plain text => simp_all [Piece.tokens, Piece.text]
  | name text => simp_all [Piece.tokens, Piece.text]

theorem encloses (message : Message) : Encloses message.tokens message.names := by
  induction message with
  | nil => exact .plain []
  | cons piece rest ih =>
    cases piece with
    | plain text => exact ih.append_left text.toList
    | name text =>
      have hname : Encloses _ (text :: names rest) := .name [] ih
      simpa [tokens, Piece.tokens, names] using hname

theorem addsMarks (h : ∀ piece ∈ message, '\x1b' ∉ piece.text.toList) :
    AddsMarks (message.render false) (message.render true) := by
  have htokens := escape_not_mem_tokens h
  have hkept : ∀ marks : List Mark, ∀ c,
      Token.char c ∈ message.tokens.filter (fun token => !token.isMarkOf marks) → c ≠ '\x1b' :=
    fun _ c hc => htokens c (List.mem_of_mem_filter hc)
  rw [render_true, render_false]
  refine ⟨deleteMarks_ofTokens htokens, ?_, ?_⟩
  all_goals
    rw [deleteMarks_ofTokens htokens, deleteMarks_ofTokens (hkept _), List.filter_filter]
    refine congrArg ofTokens (List.filter_congr fun token _ => ?_)
    cases token with
    | mark m => cases m <;> rfl
    | char c => rfl

/-- A message shows its texts, quotation marks, and with highlighting the marks. -/
theorem exists_of_mem_render {highlight : Bool} {c : Char}
    (h : c ∈ (message.render highlight).toList) (hquote : c ∉ ['‘', '’'])
    (hmark : highlight = true → c ∉ Mark.start.text ++ Mark.stop.text) :
    ∃ piece ∈ message, c ∈ piece.text.toList := by
  rw [render, String.toList_join, List.flatMap_map] at h
  obtain ⟨piece, hpiece, hc⟩ := List.mem_flatMap.mp h
  refine ⟨piece, hpiece, ?_⟩
  cases piece with
  | plain text => exact hc
  | name text =>
    have hname : c ∈ ("‘" ++ text ++ "’").toList → c ∈ text.toList := by
      intro hmem
      simpa [List.mem_cons, not_or.mp (List.mem_cons.not.mp hquote)] using hmem
    cases highlight with
    | false => exact hname hc
    | true =>
      obtain ⟨hstart, hstop⟩ := not_or.mp (List.mem_append.not.mp (hmark rfl))
      rw [Piece.render, quoteName, if_pos rfl, String.toList_append, String.toList_append,
        List.mem_append, List.mem_append] at hc
      rcases hc with (hc | hc) | hc
      · exact absurd hc hstart
      · exact hname hc
      · exact absurd hc hstop

end Message
end Text

/-! ## Diagnostics -/

namespace Fault

/-- The texts that a fault carries. -/
def texts : Fault → List String
  | alreadyDeclared name | notDeclared name | reservedTarget name => [name]
  | assignmentMismatch name expected received => [name, expected, received]
  | operandMismatch _ operator expected received => [operator, expected, received]
  | additionMismatch operator first second => [operator, first, second]

/-- The texts that the message of a fault quotes, in the order in which it does so. -/
def quotes : Fault → List String
  | alreadyDeclared name | notDeclared name => [name]
  | assignmentMismatch name expected received => [name, expected, received]
  | operandMismatch _ operator expected received => [operator, received, expected]
  | additionMismatch operator first second => [operator, first, second]
  | reservedTarget _ => []

theorem names_message (fault : Fault) : fault.message.names = fault.quotes := by
  cases fault <;> rfl

variable {c : Char} {fault : Fault}

/-- No wording has an escape character or a line feed, so what has one is a text of the fault. -/
theorem not_mem_message (hc : c = '\x1b' ∨ c = '\n') (h : ∀ text ∈ fault.texts, c ∉ text.toList) :
    ∀ piece ∈ fault.message, c ∉ piece.text.toList := by
  rcases hc with rfl | rfl
  all_goals
    cases fault with
    | operandMismatch side => cases side <;> simp_all [message, texts, Text.Piece.text, Side.name]
    | _ => simp_all [message, texts, Text.Piece.text]

theorem not_mem_label (hc : c = '\x1b' ∨ c = '\n') (fault : Fault) : c ∉ fault.label.toList := by
  rcases hc with rfl | rfl
  all_goals
    cases fault <;> simp [label]

theorem not_mem_tip (hc : c = '\x1b' ∨ c = '\n') (h : ∀ text ∈ fault.texts, c ∉ text.toList) :
    ∀ tip ∈ fault.tip, c ∉ tip.toList := by
  rcases hc with rfl | rfl
  all_goals
    cases fault <;> simp_all [tip, texts]

end Fault

theorem Position.not_mem_display {c : Char} (hc : c = '\x1b' ∨ c = '\n') {pos : Position}
    (h : c ∉ pos.file.toList) : c ∉ pos.display.toList := by
  have hnumber : ∀ n : Nat, c ∉ (toString n).toList := by
    intro n hmem
    have hdigit := isDigit_of_mem_repr hmem
    rcases hc with rfl | rfl <;> exact absurd hdigit (by decide)
  have hcolon : c ∉ ":".toList := by
    rcases hc with rfl | rfl <;> decide
  simp only [display, String.toList_append, List.mem_append, not_or]
  exact ⟨⟨⟨⟨h, hcolon⟩, hnumber _⟩, hcolon⟩, hnumber _⟩

namespace Diagnostic

/-- The texts that a diagnostic carries. -/
def texts (d : Diagnostic) : List String := d.position.file :: d.fault.texts

/-- What the rendered form has in front of the message. -/
def preamble (d : Diagnostic) : String := d.heading ++ "\n-> " ++ d.position.display ++ "\n   | "

/-- The rendered form is itself a message, which starts with running text. -/
theorem render_eq (d : Diagnostic) (highlight : Bool) : d.render highlight =
    Text.Message.render highlight (.plain d.preamble :: d.fault.message) := by
  rw [Text.Message.render_cons]
  rfl

theorem heading_eq (d : Diagnostic) : d.heading = "Error: " ++ d.fault.label ++
    match d.fault.tip with
    | none => ""
    | some tip => " (" ++ tip ++ ")" := by
  rw [heading]
  cases d.fault.tip with
  | none => simp
  | some tip => simp [String.append_assoc]

variable {c : Char} {d : Diagnostic}

theorem not_mem_heading (hc : c = '\x1b' ∨ c = '\n') (h : ∀ text ∈ d.texts, c ∉ text.toList) :
    c ∉ d.heading.toList := by
  have hlabel := d.fault.not_mem_label hc
  have htip := Fault.not_mem_tip hc fun text htext => h text (List.mem_cons_of_mem _ htext)
  have hwords : c ∉ "Error: ".toList ∧ c ∉ " (".toList ∧ c ∉ ")".toList := by
    rcases hc with rfl | rfl <;> decide
  rw [heading]
  cases ht : d.fault.tip with
  | none =>
    rw [String.toList_append, List.mem_append, not_or]
    exact ⟨hwords.1, hlabel⟩
  | some tip =>
    have htext : c ∉ tip.toList := htip tip ht
    simp only [String.toList_append, List.mem_append, not_or]
    exact ⟨⟨⟨⟨hwords.1, hlabel⟩, hwords.2.1⟩, htext⟩, hwords.2.2⟩

theorem escape_not_mem_preamble (h : ∀ text ∈ d.texts, '\x1b' ∉ text.toList) :
    '\x1b' ∉ d.preamble.toList := by
  have hposition := Position.not_mem_display (.inl rfl) (h d.position.file List.mem_cons_self)
  simp only [preamble, String.toList_append, List.mem_append, not_or]
  exact ⟨⟨⟨not_mem_heading (.inl rfl) h, by decide⟩, hposition⟩, by decide⟩

theorem splitOn_render (h : ∀ text ∈ d.texts, '\n' ∉ text.toList) (highlight : Bool) :
    (d.render highlight).toList.splitOn '\n' =
      [d.heading.toList, ("-> " ++ d.position.display).toList,
        ("   | " ++ d.message highlight).toList] := by
  have hheading := not_mem_heading (.inr rfl) h
  have hposition := Position.not_mem_display (.inr rfl) (h d.position.file List.mem_cons_self)
  have hmessage : '\n' ∉ (d.message highlight).toList := by
    intro hmem
    obtain ⟨piece, hpiece, hc⟩ :=
      Text.Message.exists_of_mem_render hmem (by decide) (fun _ => by decide)
    exact Fault.not_mem_message (.inr rfl)
      (fun text htext => h text (List.mem_cons_of_mem _ htext)) piece hpiece hc
  have hlines : ∀ line ∈ [d.heading.toList, ("-> " ++ d.position.display).toList,
      ("   | " ++ d.message highlight).toList], '\n' ∉ line := by
    simp [hheading, hposition, hmessage]
  rw [← List.splitOn_intercalate '\n' hlines (List.cons_ne_nil _ _)]
  congr 1
  simp [render, List.intercalate]

/-- Where no text of a diagnostic holds an escape character, highlighting its message puts marks in
and does nothing else: each pair of marks encloses one of the quoted texts, there is no escape
character besides, and deleting the marks gives the message without highlighting.  The same holds of
the rendered form, which is three lines if no text holds a line feed. -/
theorem addsMarks_render (h : ∀ text ∈ d.texts, '\x1b' ∉ text.toList) :
    Text.AddsMarks (d.message false) (d.message true) ∧
    '\x1b' ∉ (d.message false).toList ∧
    Text.Encloses (Text.scan Text.Mark.both (d.message true)) d.fault.quotes ∧
    (∀ c, .char c ∈ Text.scan Text.Mark.both (d.message true) → c ≠ '\x1b') ∧
    Text.AddsMarks (d.render false) (d.render true) ∧
    ((∀ text ∈ d.texts, '\n' ∉ text.toList) → ∀ highlight,
      (d.render highlight).toList.splitOn '\n' =
        [("Error: " ++ d.fault.label ++
            match d.fault.tip with
            | none => ""
            | some tip => " (" ++ tip ++ ")").toList,
          ("-> " ++ d.position.display).toList,
          ("   | " ++ d.message highlight).toList]) := by
  have hmessage : ∀ piece ∈ d.fault.message, '\x1b' ∉ piece.text.toList :=
    Fault.not_mem_message (.inl rfl) fun text htext => h text (List.mem_cons_of_mem _ htext)
  have hrendered : ∀ piece ∈ Text.Piece.plain d.preamble :: d.fault.message,
      '\x1b' ∉ piece.text.toList :=
    List.forall_mem_cons.mpr ⟨escape_not_mem_preamble h, hmessage⟩
  have htokens := Text.Message.escape_not_mem_tokens hmessage
  have hscan : Text.scan Text.Mark.both (d.message true) = d.fault.message.tokens := by
    rw [message, Text.Message.render_true, Text.scan_both_ofTokens htokens]
  refine ⟨Text.Message.addsMarks hmessage, ?_, ?_, ?_, ?_, fun hfeed highlight => ?_⟩
  · intro hmem
    obtain ⟨piece, hpiece, hc⟩ :=
      Text.Message.exists_of_mem_render hmem (by decide) (fun hfalse => nomatch hfalse)
    exact hmessage piece hpiece hc
  · rw [hscan, ← Fault.names_message]
    exact Text.Message.encloses d.fault.message
  · rw [hscan]
    exact htokens
  · rw [render_eq, render_eq]
    exact Text.Message.addsMarks hrendered
  · rw [← heading_eq]
    exact splitOn_render hfeed highlight

/-- Names that look like the rest of a mark. -/
theorem addsMarks_render_of_mark_like_name :
    let d : Diagnostic :=
      ⟨.assignmentMismatch "[1;97m‘x’" "integer" "[0m", ⟨2, 7, "a:1:[0m"⟩⟩
    (∀ text ∈ d.texts, '\x1b' ∉ text.toList) ∧ (∀ text ∈ d.texts, '\n' ∉ text.toList) ∧
      Text.deleteMarks Text.Mark.both (d.message true) =
        "Variable ‘[1;97m‘x’’ has type ‘integer’, but a value of type ‘[0m’ is being assigned" ∧
      Text.Encloses (Text.scan Text.Mark.both (d.message true)) ["[1;97m‘x’", "integer", "[0m"] ∧
      ((d.render true).toList.splitOn '\n').length = 3 := by
  intro d
  have hescape : ∀ text ∈ d.texts, '\x1b' ∉ text.toList := by decide
  have hfeed : ∀ text ∈ d.texts, '\n' ∉ text.toList := by decide
  obtain ⟨hmarks, -, hencloses, -, -, hlines⟩ := addsMarks_render hescape
  exact ⟨hescape, hfeed, hmarks.together.trans (by decide), hencloses,
    congrArg List.length (hlines hfeed true)⟩

end Diagnostic
end ImpFront
