/-
What the display of a value tells.

A string is displayed as quoted text, and which characters such a text hides is a matter of the
table of hidden characters.  Nothing here looks into that table.  The first character of a display
tells the type of the value (`leadType`), and the rest is read back: digits as a number, quoted
text character by character.  So no two values share a display (`displayWith_injective`), and if
the table has the control characters then a display is one line (`isControl_of_mem_displayWith`).

The theorem this file exists for is `displayWith_legible`.
-/
import ImpFront.Proofs.Quotation

namespace ImpFront

/-! ## Decimal numbers -/

theorem isDigit_of_mem_repr {n : Nat} {d : Char} (h : d ∈ n.repr.toList) : d.isDigit = true := by
  rw [Nat.repr_eq_ofList_toDigits, String.toList_ofList] at h
  exact Nat.isDigit_of_mem_toDigits (by decide) (by decide) h

/-- A whole number is written with digits, and with a sign in front if it is negative. -/
theorem exists_digits_of_int (n : Int) : ∃ d digits, (∀ c ∈ d :: digits, c.isDigit = true) ∧
    ((toString n).toList = d :: digits ∨ (toString n).toList = '-' :: d :: digits) := by
  have hnat : ∀ m : Nat, ∃ d digits, m.repr.toList = d :: digits := by
    intro m
    have hne : m.repr.toList ≠ [] := by
      rw [Nat.repr_eq_ofList_toDigits, String.toList_ofList]
      exact Nat.toDigits_ne_nil
    exact List.exists_cons_of_ne_nil hne
  rw [Int.toString_eq_repr, Int.repr_eq_if]
  split
  · obtain ⟨d, digits, h⟩ := hnat n.toNat
    exact ⟨d, digits, fun c hc => isDigit_of_mem_repr (h ▸ hc), .inl h⟩
  · obtain ⟨d, digits, h⟩ := hnat (-n).toNat
    refine ⟨d, digits, fun c hc => isDigit_of_mem_repr (h ▸ hc), .inr ?_⟩
    rw [String.toList_append, h]
    rfl

namespace Value

/-- The text of a value, with the hidden characters of any table. -/
def displayWith (hidden : Char → Bool) : Value → String
  | integer n => toString n.toInt
  | boolean b => if b then "true" else "false"
  | string s => String.ofList (Text.encode hidden s.toList)

theorem display_eq (v : Value) : v.display = v.displayWith Text.isHidden := by
  cases v <;> rfl

variable {hidden : Char → Bool}

/-! ## The value behind a display -/

/-- The type of the values whose display starts with the character. -/
def leadType (c : Char) : Ty :=
  if c = '"' then .string else if c.isDigit || c = '-' then .integer else .boolean

theorem leadType_of_isDigit {c : Char} (h : c.isDigit = true) : leadType c = .integer := by
  have hquote : c ≠ '"' := by
    rintro rfl
    exact absurd h (by decide)
  rw [leadType, if_neg hquote, h]
  rfl

theorem map_leadType_displayWith (v : Value) :
    (v.displayWith hidden).toList.head?.map leadType = some v.type := by
  cases v with
  | integer m =>
    obtain ⟨d, digits, hdigits, h | h⟩ := exists_digits_of_int m.toInt
    · rw [displayWith, h]
      exact congrArg some (leadType_of_isDigit (hdigits d List.mem_cons_self))
    · rw [displayWith, h]
      rfl
  | boolean b =>
    have hwords : ∀ word ∈ ["true", "false"], word.toList.head?.map leadType = some .boolean := by
      decide
    cases b with
    | true => exact hwords "true" (by simp)
    | false => exact hwords "false" (by simp)
  | string s =>
    rw [displayWith, String.toList_ofList]
    rfl

theorem displayWith_injective {v w : Value} (h : v.displayWith hidden = w.displayWith hidden) :
    v = w := by
  have htype : v.type = w.type := by
    have hlead : (v.displayWith hidden).toList.head?.map leadType = some v.type :=
      map_leadType_displayWith v
    rw [h, map_leadType_displayWith] at hlead
    exact (Option.some.inj hlead).symm
  cases v with
  | integer m =>
    cases w with
    | integer n =>
      have hint : m.toInt = n.toInt := Int.repr_injective h
      rw [Int64.toInt_inj.mp hint]
    | _ => cases htype
  | boolean a =>
    cases w with
    | boolean b =>
      have hwords : "true" ≠ "false" := by decide
      cases a with
      | true =>
        cases b with
        | true => rfl
        | false => exact absurd h hwords
      | false =>
        cases b with
        | true => exact absurd h.symm hwords
        | false => rfl
    | _ => cases htype
  | string a =>
    cases w with
    | string b =>
      have hencoded : Text.encode hidden a.toList = Text.encode hidden b.toList :=
        String.ofList_injective h
      rw [String.toList_inj.mp (Text.encode_injective hencoded)]
    | _ => cases htype

theorem display_injective {v w : Value} (h : v.display = w.display) : v = w := by
  rw [display_eq, display_eq] at h
  exact displayWith_injective h

/-! ## The line of a display -/

theorem isControl_of_isDigit {d : Char} (h : d.isDigit = true) : Text.isControl d = false := by
  have hrange : 48 ≤ d.toNat ∧ d.toNat ≤ 57 := by
    simpa [Char.isDigit, UInt32.le_iff_toNat_le] using h
  simp only [Text.isControl, Bool.or_eq_false_iff, decide_eq_false_iff_not, Bool.and_eq_false_iff]
  omega

theorem isControl_of_mem_displayWith (hhidden : ∀ c, Text.isControl c = true → hidden c = true)
    {v : Value} {d : Char} (h : d ∈ (v.displayWith hidden).toList) : Text.isControl d = false := by
  cases v with
  | integer m =>
    obtain ⟨first, digits, hdigits, htext | htext⟩ := exists_digits_of_int m.toInt
    · rw [displayWith, htext] at h
      exact isControl_of_isDigit (hdigits d h)
    · rw [displayWith, htext] at h
      rcases List.mem_cons.mp h with rfl | h
      · rfl
      · exact isControl_of_isDigit (hdigits d h)
  | boolean b =>
    have hwords : ∀ d ∈ "true".toList ++ "false".toList, Text.isControl d = false := by
      simp [Text.isControl]
    cases b with
    | true => exact hwords d (List.mem_append_left _ h)
    | false => exact hwords d (List.mem_append_right _ h)
  | string s =>
    rw [displayWith, String.toList_ofList] at h
    exact Text.isControl_of_mem_encode hhidden h

theorem isControl_of_mem_display {v : Value} {d : Char} (h : d ∈ v.display.toList) :
    Text.isControl d = false := by
  rw [display_eq] at h
  exact isControl_of_mem_displayWith (fun _ => Text.isHidden_of_isControl) h

/-- Whatever table of hidden characters has the control characters, and the table in use is one of
them: a display tells its value, a string is read back from its quoted form, and a display is one
line without control characters.  Between the quotes of a string no double quote stands as
itself. -/
theorem displayWith_legible (hhidden : ∀ c, Text.isControl c = true → hidden c = true) :
    (∀ v w : Value, v.displayWith hidden = w.displayWith hidden → v = w) ∧
    (∀ s : String, Text.decode? ((string s).displayWith hidden).toList = some s.toList) ∧
    (∀ v : Value, ∀ c ∈ (v.displayWith hidden).toList, c ≠ '\n' ∧ Text.isControl c = false) ∧
    (∀ s : String, ∃ inner, ((string s).displayWith hidden).toList = '"' :: inner ++ ['"'] ∧
      Text.quotesEscaped inner = true) ∧
    ((∀ c, Text.isControl c = true → Text.isHidden c = true) ∧
      ∀ v : Value, v.display = v.displayWith Text.isHidden) := by
  have hstring : ∀ s : String,
      ((string s).displayWith hidden).toList = Text.encode hidden s.toList :=
    fun _ => String.toList_ofList
  refine ⟨fun _ _ => displayWith_injective, fun s => ?_, fun v c hc => ?_, fun s => ?_,
    fun _ => Text.isHidden_of_isControl, display_eq⟩
  · rw [hstring, Text.decode?_encode]
  · have hcontrol := isControl_of_mem_displayWith hhidden hc
    refine ⟨?_, hcontrol⟩
    rintro rfl
    exact absurd hcontrol (by decide)
  · exact ⟨_, hstring s, Text.quotesEscaped_escapeAll hidden s.toList⟩

/-- A table that hides everything beyond ASCII, and a string with a letter of that kind, a
backslash, a line feed and a double quote. -/
theorem displayWith_legible_of_ascii_table :
    let hidden : Char → Bool := fun c => Text.isControl c || decide (0x7f ≤ c.toNat)
    (∀ c, Text.isControl c = true → hidden c = true) ∧
    (string "é\\n\n\"").displayWith hidden = "\"\\u\x7be9\x7d\\\\n\\n\\\"\"" ∧
    Text.decode? "\"\\u\x7be9\x7d\\\\n\\n\\\"\"".toList = some "é\\n\n\"".toList ∧
    (integer 1).displayWith hidden ≠ (string "1").displayWith hidden := by
  intro hidden
  have hhidden : ∀ c, Text.isControl c = true → hidden c = true :=
    fun _ hc => Bool.or_eq_true_iff.mpr (.inl hc)
  obtain ⟨hinjective, hread, -⟩ := displayWith_legible hhidden
  have hdisplay : (string "é\\n\n\"").displayWith hidden =
      "\"\\u\x7be9\x7d\\\\n\\n\\\"\"" := by decide
  have hdecoded := hread "é\\n\n\""
  rw [hdisplay] at hdecoded
  exact ⟨hhidden, hdisplay, hdecoded, fun h => nomatch hinjective _ _ h⟩

end Value
end ImpFront
