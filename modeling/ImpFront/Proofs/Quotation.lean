/-
Quoted text can be read back.

`readEscape` reads one written character and gives back the rest.  It knows nothing of the set
of hidden characters, since an escape tells by its own form where it ends
(`readEscape_escape`).  So a text is read back from its quoted form, whatever that set is
(`decode?_encode`).  Between the two quotes every double quote is escaped
(`quotesEscaped_escapeAll`), and if the set has all control characters then a quoted text has none
(`isControl_of_mem_encode`).
-/
import Mathlib
import ImpFront.Value

namespace ImpFront
namespace Text

/-! ## Hexadecimal digits -/

def hexDigitValue (c : Char) : Nat :=
  if c.isDigit then c.toNat - '0'.toNat else c.toNat - 'a'.toNat + 10

def hexValue (digits : List Char) : Nat :=
  digits.foldl (fun n c => 16 * n + hexDigitValue c) 0

theorem hexDigitValue_digitChar : ∀ n < 16, hexDigitValue n.digitChar = n := by
  decide

theorem hexValue_append_singleton (digits : List Char) (c : Char) :
    hexValue (digits ++ [c]) = 16 * hexValue digits + hexDigitValue c := by
  rw [hexValue, List.foldl_append, ← hexValue]
  rfl

theorem hexValue_toDigits (n : Nat) : hexValue (Nat.toDigits 16 n) = n := by
  induction n using Nat.strongRecOn with
  | ind n ih =>
    rw [Nat.toDigits_eq_if (by decide)]
    split
    · rename_i h
      simpa [hexValue] using hexDigitValue_digitChar n h
    · rename_i h
      have hless : n / 16 < n := Nat.div_lt_self (by omega) (by decide)
      have hlast : n % 16 < 16 := Nat.mod_lt n (by decide)
      rw [hexValue_append_singleton, ih _ hless, hexDigitValue_digitChar _ hlast]
      exact Nat.div_add_mod n 16

theorem exists_of_mem_toDigits {n : Nat} {c : Char} (h : c ∈ Nat.toDigits 16 n) :
    ∃ d < 16, c = d.digitChar := by
  induction n using Nat.strongRecOn with
  | ind n ih =>
    rw [Nat.toDigits_eq_if (by decide)] at h
    split at h
    · rename_i hn
      exact ⟨n, hn, List.mem_singleton.mp h⟩
    · rename_i hn
      rcases List.mem_append.mp h with h | h
      · exact ih _ (Nat.div_lt_self (by omega) (by decide)) h
      · exact ⟨n % 16, Nat.mod_lt n (by decide), List.mem_singleton.mp h⟩

/-! ## Written characters -/

/-- The characters that are written with a backslash and one more character, each with that
character. -/
def escapes : List (Char × Char) :=
  [('\x00', '0'), ('\t', 't'), ('\r', 'r'), ('\n', 'n'), ('"', '"'), ('\\', '\\')]

theorem escape_cases (hidden : Char → Bool) (c : Char) :
    (∃ x, (c, x) ∈ escapes ∧ escape hidden c = ['\\', x]) ∨
    escape hidden c = codePointEscape c ∨
    (c ≠ '"' ∧ c ≠ '\\' ∧ hidden c = false ∧ escape hidden c = [c]) := by
  have hescape : ∀ p ∈ escapes, escape hidden p.1 = ['\\', p.2] := by
    simp [escapes, escape]
  by_cases hpair : ∃ x, (c, x) ∈ escapes
  · obtain ⟨x, hx⟩ := hpair
    exact .inl ⟨x, hx, hescape (c, x) hx⟩
  · right
    -- The tests that `escape` makes in turn all fail.
    have hc : ∀ p ∈ escapes, c ≠ p.1 := by
      rintro ⟨_, x⟩ hx rfl
      exact hpair ⟨x, hx⟩
    simp only [escapes, List.forall_mem_cons] at hc
    obtain ⟨hnull, htab, hreturn, hfeed, hquote, hbackslash, -⟩ := hc
    rw [escape, if_neg hnull, if_neg htab, if_neg hreturn, if_neg hfeed, if_neg hquote,
      if_neg hbackslash]
    cases hidden c with
    | true => exact .inl rfl
    | false => exact .inr ⟨hquote, hbackslash, rfl, rfl⟩

/-! ## Reading a written character -/

/-- The character that a text starts with in written form, and what follows it. -/
def readEscape : List Char → Option (Char × List Char)
  | '\\' :: '0' :: rest => some ('\x00', rest)
  | '\\' :: 't' :: rest => some ('\t', rest)
  | '\\' :: 'r' :: rest => some ('\r', rest)
  | '\\' :: 'n' :: rest => some ('\n', rest)
  | '\\' :: 'u' :: '\x7b' :: rest =>
    some (Char.ofNat (hexValue (rest.takeWhile (· ≠ '\x7d'))),
      (rest.dropWhile (· ≠ '\x7d')).drop 1)
  | '\\' :: c :: rest => some (c, rest)
  | c :: rest => some (c, rest)
  | [] => none

theorem readEscape_codePointEscape (c : Char) (rest : List Char) :
    readEscape (codePointEscape c ++ rest) = some (c, rest) := by
  have hdigits : ∀ d ∈ Nat.toDigits 16 c.toNat, decide (d ≠ '\x7d') = true := by
    intro d hd
    obtain ⟨n, hn, rfl⟩ := exists_of_mem_toDigits hd
    have hclosing : ∀ n < 16, n.digitChar ≠ '\x7d' := by decide
    exact decide_eq_true (hclosing n hn)
  have hread : readEscape (codePointEscape c ++ rest) =
      readEscape ('\\' :: 'u' :: '\x7b' :: (Nat.toDigits 16 c.toNat ++ '\x7d' :: rest)) := by
    simp [codePointEscape]
  rw [hread, readEscape, List.takeWhile_append_of_pos hdigits, List.dropWhile_append_of_pos hdigits]
  simp [hexValue_toDigits]

/-- A written character is read back and nothing more of the text is taken. -/
theorem readEscape_escape (hidden : Char → Bool) (c : Char) (rest : List Char) :
    readEscape (escape hidden c ++ rest) = some (c, rest) := by
  have hpair : ∀ p ∈ escapes, readEscape ('\\' :: p.2 :: rest) = some (p.1, rest) := by
    simp [escapes, readEscape]
  rcases escape_cases hidden c with ⟨x, hx, h⟩ | h | ⟨-, hbackslash, -, h⟩
  · rw [h]
    exact hpair (c, x) hx
  · rw [h]
    exact readEscape_codePointEscape c rest
  · rw [h]
    show readEscape (c :: rest) = some (c, rest)
    unfold readEscape
    split <;> simp_all

theorem length_readEscape {text rest : List Char} {c : Char}
    (h : readEscape text = some (c, rest)) : rest.length < text.length := by
  unfold readEscape at h
  split at h
  case h_5 digits =>
    cases h
    have hdrop := List.length_dropWhile_le (fun c => decide (c ≠ '\x7d')) digits
    simp only [List.length_drop, List.length_cons]
    omega
  all_goals
    cases h <;> simp

/-! ## Reading quoted text -/

/-- The characters of a text that goes on to its closing quote.  A double quote that stands as
itself closes the text, so nothing may come behind it. -/
def readBody? (text : List Char) : Option (List Char) :=
  if text = ['"'] then some []
  else if text.head? = some '"' then none
  else
    match _ : readEscape text with
    | none => none
    | some (c, rest) => (readBody? rest).map (c :: ·)
termination_by text.length
decreasing_by exact length_readEscape ‹_›

/-- The characters of a quoted text. -/
def decode? : List Char → Option (List Char)
  | '"' :: body => readBody? body
  | _ => none

/-- A written character never starts with a double quote. -/
theorem head?_escape_append (hidden : Char → Bool) (c : Char) (rest : List Char) :
    (escape hidden c ++ rest).head? ≠ some '"' := by
  rcases escape_cases hidden c with ⟨x, -, h⟩ | h | ⟨hquote, -, -, h⟩
  · simp [h]
  · simp [h, codePointEscape]
  · simp [h, hquote]

theorem readBody?_escapeAll (hidden : Char → Bool) (text : List Char) :
    readBody? (escapeAll hidden text ++ ['"']) = some text := by
  induction text with
  | nil =>
    rw [readBody?]
    rfl
  | cons c text ih =>
    have hhead := head?_escape_append hidden c (escapeAll hidden text ++ ['"'])
    have hopen : escape hidden c ++ (escapeAll hidden text ++ ['"']) ≠ ['"'] := by
      intro h
      exact hhead (by rw [h]; rfl)
    rw [escapeAll_cons, List.append_assoc, readBody?, if_neg hopen, if_neg hhead]
    split
    · rename_i hread
      rw [readEscape_escape] at hread
      cases hread
    · rename_i first rest hread
      rw [readEscape_escape] at hread
      cases hread
      rw [ih]
      rfl

theorem decode?_encode (hidden : Char → Bool) (text : List Char) :
    decode? (encode hidden text) = some text :=
  readBody?_escapeAll hidden text

theorem encode_injective {hidden : Char → Bool} {first second : List Char}
    (h : encode hidden first = encode hidden second) : first = second := by
  have hread := congrArg decode? h
  rw [decode?_encode, decode?_encode] at hread
  exact Option.some.inj hread

/-! ## Double quotes -/

/-- Whether each double quote of a text is escaped, where a backslash takes the character behind it
along.  A backslash that is left over would take what comes behind the text. -/
def quotesEscaped : List Char → Bool
  | [] => true
  | ['\\'] => false
  | '\\' :: _ :: rest => quotesEscaped rest
  | c :: rest => c ≠ '"' && quotesEscaped rest

theorem quotesEscaped_append_of_plain {text : List Char}
    (h : ∀ c ∈ text, c ≠ '"' ∧ c ≠ '\\') (rest : List Char) :
    quotesEscaped (text ++ rest) = quotesEscaped rest := by
  induction text with
  | nil => rfl
  | cons c text ih =>
    obtain ⟨hquote, hbackslash⟩ := h c List.mem_cons_self
    rw [List.cons_append, quotesEscaped]
    · rw [ih fun d hd => h d (List.mem_cons_of_mem c hd), decide_eq_true hquote, Bool.true_and]
    · exact fun hc => absurd hc hbackslash
    · exact fun _ _ hc => absurd hc hbackslash

theorem quotesEscaped_codePointEscape (c : Char) (rest : List Char) :
    quotesEscaped (codePointEscape c ++ rest) = quotesEscaped rest := by
  have hdigit : ∀ n < 16, n.digitChar ≠ '"' ∧ n.digitChar ≠ '\\' := by decide
  have hplain : ∀ d ∈ '\x7b' :: Nat.toDigits 16 c.toNat ++ ['\x7d'], d ≠ '"' ∧ d ≠ '\\' := by
    intro d hd
    rcases List.mem_append.mp hd with hd | hd
    · rcases List.mem_cons.mp hd with rfl | hd
      · decide
      · obtain ⟨n, hn, rfl⟩ := exists_of_mem_toDigits hd
        exact hdigit n hn
    · rw [List.mem_singleton.mp hd]
      decide
  exact quotesEscaped_append_of_plain hplain rest

theorem quotesEscaped_escape_append (hidden : Char → Bool) (c : Char) (rest : List Char) :
    quotesEscaped (escape hidden c ++ rest) = quotesEscaped rest := by
  rcases escape_cases hidden c with ⟨x, -, h⟩ | h | ⟨hquote, hbackslash, -, h⟩
  · rw [h]
    rfl
  · rw [h]
    exact quotesEscaped_codePointEscape c rest
  · rw [h]
    refine quotesEscaped_append_of_plain (fun d hd => ?_) rest
    rw [List.mem_singleton.mp hd]
    exact ⟨hquote, hbackslash⟩

theorem quotesEscaped_escapeAll (hidden : Char → Bool) (text : List Char) :
    quotesEscaped (escapeAll hidden text) = true := by
  induction text with
  | nil => rfl
  | cons c text ih => rw [escapeAll_cons, quotesEscaped_escape_append, ih]

/-- Right before an escaped double quote stands a backslash. -/
theorem getLast?_of_quotesEscaped {before after : List Char}
    (h : quotesEscaped (before ++ '"' :: after) = true) : before.getLast? = some '\\' := by
  induction before using quotesEscaped.induct with
  | case1 => simp [quotesEscaped] at h
  | case2 => rfl
  | case3 c rest ih =>
    have hrest : rest.getLast? = some '\\' := ih h
    rw [List.getLast?_cons_cons, List.getLast?_cons, hrest]
    rfl
  | case4 c rest hlast hpair ih =>
    have hbackslash : c ≠ '\\' := by
      rintro rfl
      cases rest with
      | nil => exact hlast rfl rfl
      | cons d rest => exact hpair d rest rfl rfl
    rw [List.cons_append, quotesEscaped] at h
    · have hrest : rest.getLast? = some '\\' := ih (Bool.and_eq_true_iff.mp h).2
      rw [List.getLast?_cons, hrest]
      rfl
    · exact fun hc => absurd hc hbackslash
    · exact fun _ _ hc => absurd hc hbackslash

/-! ## No control characters -/

theorem isControl_of_mem_codePointEscape {c d : Char} (h : d ∈ codePointEscape c) :
    isControl d = false := by
  have hmark : ∀ d ∈ ['\\', 'u', '\x7b', '\x7d'], isControl d = false := by simp [isControl]
  have hdigit : ∀ n < 16, isControl n.digitChar = false := by decide
  rw [codePointEscape, List.mem_append, List.mem_append] at h
  rcases h with (h | h) | h
  · exact hmark d (List.mem_of_mem_take (i := 3) h)
  · obtain ⟨n, hn, rfl⟩ := exists_of_mem_toDigits h
    exact hdigit n hn
  · exact hmark d (List.mem_of_mem_drop (i := 3) h)

theorem isControl_of_mem_escape {hidden : Char → Bool}
    (hhidden : ∀ c, isControl c = true → hidden c = true) {c d : Char}
    (h : d ∈ escape hidden c) : isControl d = false := by
  have hpair : ∀ p ∈ escapes, ∀ d ∈ ['\\', p.2], isControl d = false := by
    simp [escapes, isControl]
  rcases escape_cases hidden c with ⟨x, hx, hescape⟩ | hescape | ⟨-, -, hvisible, hescape⟩
  · exact hpair (c, x) hx d (hescape ▸ h)
  · exact isControl_of_mem_codePointEscape (hescape ▸ h)
  · rw [hescape] at h
    rw [List.mem_singleton.mp h]
    refine Bool.eq_false_iff.mpr fun hcontrol => ?_
    rw [hhidden c hcontrol] at hvisible
    cases hvisible

theorem isControl_of_mem_encode {hidden : Char → Bool}
    (hhidden : ∀ c, isControl c = true → hidden c = true) {text : List Char} {d : Char}
    (h : d ∈ encode hidden text) : isControl d = false := by
  have hquote : isControl '"' = false := rfl
  rcases List.mem_append.mp h with h | h
  · rcases List.mem_cons.mp h with rfl | h
    · exact hquote
    · obtain ⟨c, -, hd⟩ := List.mem_flatMap.mp h
      exact isControl_of_mem_escape hhidden hd
  · rw [List.mem_singleton.mp h]
    exact hquote

end Text
end ImpFront
