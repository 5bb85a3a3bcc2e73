/-
Texts that are refused as numbers.

The guard of an assignment splits a text at its first point and looks at the two parts.  What it
is to find are numerals, which are given here by a grammar (`Numeral`) and by a pattern
(`Numeral.pattern`).  The three have the same texts, so an assignment refuses exactly the numerals
and the reserved words (`check_numeral`).
-/
import Mathlib.Computability.RegularExpressions
import Mathlib.Data.List.TakeWhile
import ImpFront.Proofs.Rules

namespace ImpFront
namespace Target

/-! ## Grammar and pattern -/

/-- The digits of a numeral.  A digit of another script is none of them. -/
def digits : List Char := ['0', '1', '2', '3', '4', '5', '6', '7', '8', '9']

def IsDigitRun (text : List Char) : Prop := text ≠ [] ∧ ∀ c ∈ text, c ∈ digits

/-- The texts that are numbers: digits, or digits, one point, and digits. -/
inductive Numeral : List Char → Prop
  | whole {run : List Char} : IsDigitRun run → Numeral run
  | decimal {run fraction : List Char} :
      IsDigitRun run → IsDigitRun fraction → Numeral (run ++ '.' :: fraction)

namespace Numeral

open RegularExpression (char)

def oneOf (chars : List Char) : RegularExpression Char := (chars.map char).sum

def repeated (r : RegularExpression Char) : RegularExpression Char := r * r.star

def optional (r : RegularExpression Char) : RegularExpression Char := 1 + r

/-- The pattern `[0-9]+(\.[0-9]+)?`, which all of a text has to match. -/
def pattern : RegularExpression Char :=
  repeated (oneOf digits) * optional (char '.' * repeated (oneOf digits))

/-! ## Texts that match the pattern -/

theorem mem_oneOf {chars text : List Char} :
    text ∈ (oneOf chars).matches' ↔ ∃ c ∈ chars, text = [c] := by
  induction chars with
  | nil => simp [oneOf]
  | cons c rest ih =>
    have hcons : oneOf (c :: rest) = char c + oneOf rest := rfl
    rw [hcons, RegularExpression.matches'_add, Language.mem_add, ih, List.exists_mem_cons_iff]
    exact Iff.rfl

theorem mem_star_oneOf {chars text : List Char} :
    text ∈ (oneOf chars).star.matches' ↔ ∀ c ∈ text, c ∈ chars := by
  rw [RegularExpression.matches'_star, Language.mem_kstar]
  constructor
  · rintro ⟨parts, rfl, hparts⟩ c hc
    obtain ⟨part, hpart, hc⟩ := List.mem_flatten.mp hc
    obtain ⟨d, hd, rfl⟩ := mem_oneOf.mp (hparts part hpart)
    rwa [List.mem_singleton.mp hc]
  · intro h
    refine ⟨text.map fun c => [c], text.flatMap_singleton'.symm, fun part hpart => ?_⟩
    obtain ⟨c, hc, rfl⟩ := List.mem_map.mp hpart
    exact mem_oneOf.mpr ⟨c, h c hc, rfl⟩

theorem mem_repeated_digits {text : List Char} :
    text ∈ (repeated (oneOf digits)).matches' ↔ IsDigitRun text := by
  rw [repeated, RegularExpression.matches'_mul, Language.mem_mul]
  constructor
  · rintro ⟨first, hfirst, rest, hrest, rfl⟩
    obtain ⟨c, hc, rfl⟩ := mem_oneOf.mp hfirst
    refine ⟨List.cons_ne_nil c rest, List.forall_mem_cons.mpr ⟨hc, mem_star_oneOf.mp hrest⟩⟩
  · rintro ⟨hne, hdigits⟩
    obtain ⟨c, rest, rfl⟩ := List.exists_cons_of_ne_nil hne
    obtain ⟨hc, hrest⟩ := List.forall_mem_cons.mp hdigits
    exact ⟨[c], mem_oneOf.mpr ⟨c, hc, rfl⟩, rest, mem_star_oneOf.mpr hrest, rfl⟩

theorem mem_pattern {text : List Char} : text ∈ pattern.matches' ↔ Numeral text := by
  rw [pattern, optional, RegularExpression.matches'_mul, RegularExpression.matches'_add,
    RegularExpression.matches'_mul, Language.mem_mul]
  constructor
  · rintro ⟨run, hrun, tail, htail, rfl⟩
    have hrun : IsDigitRun run := mem_repeated_digits.mp hrun
    rcases (Language.mem_add _ _ _).mp htail with rfl | htail
    · rw [List.append_nil]
      exact .whole hrun
    · obtain ⟨point, rfl, fraction, hfraction, rfl⟩ := Language.mem_mul.mp htail
      exact .decimal hrun (mem_repeated_digits.mp hfraction)
  · rintro (hrun | ⟨hrun, hfraction⟩)
    · refine ⟨text, mem_repeated_digits.mpr hrun, [], ?_, List.append_nil text⟩
      exact (Language.mem_add _ _ _).mpr (.inl rfl)
    · refine ⟨_, mem_repeated_digits.mpr hrun, _, (Language.mem_add _ _ _).mpr (.inr ?_), rfl⟩
      exact Language.append_mem_mul (rfl : ['.'] ∈ _) (mem_repeated_digits.mpr hfraction)

end Numeral

/-! ## Texts that the guard finds -/

theorem mem_digits {c : Char} : c ∈ digits ↔ c.isDigit = true := by
  constructor
  · intro h
    have hdigits : digits.all Char.isDigit = true := by decide
    exact List.all_eq_true.mp hdigits c h
  · intro h
    have hnumbers : ∀ n < 10, Char.ofNat (48 + n) ∈ digits := by decide
    obtain ⟨hlow, hhigh⟩ : 48 ≤ c.toNat ∧ c.toNat ≤ 57 := by
      simpa [Char.isDigit, UInt32.le_iff_toNat_le] using h
    have hc := hnumbers (c.toNat - 48) (by omega)
    rwa [Nat.add_sub_cancel' hlow, Char.ofNat_toNat] at hc

theorem isDigits_iff (text : List Char) : isDigits text = true ↔ IsDigitRun text := by
  simp [isDigits, IsDigitRun, mem_digits]

/-- A run of digits has no point, so the guard splits a text behind it. -/
theorem IsDigitRun.ne_point {run : List Char} (h : IsDigitRun run) :
    ∀ c ∈ run, decide (c ≠ '.') = true := by
  intro c hc
  have hpoint : '.' ∉ digits := by decide
  exact decide_eq_true fun heq => hpoint (heq ▸ h.2 c hc)

theorem isNumber_iff (name : String) : isNumber name = true ↔ Numeral name.toList := by
  unfold isNumber
  generalize name.toList = text
  constructor
  · intro h
    have hsplit : text.takeWhile (· ≠ '.') ++ text.dropWhile (· ≠ '.') = text :=
      List.takeWhile_append_dropWhile
    -- the second part still has the point in front, and is empty if there is none
    cases hrest : text.dropWhile (· ≠ '.') with
    | nil =>
      rw [hrest] at h hsplit
      rw [← hsplit, List.append_nil]
      exact .whole ((isDigits_iff _).mp h)
    | cons c fraction =>
      have hpoint : c = '.' := by
        have hhead := List.head?_dropWhile_not (fun c => decide (c ≠ '.')) text
        rw [hrest] at hhead
        simpa using hhead
      simp only [hrest, Bool.and_eq_true, isDigits_iff] at h
      rw [← hsplit, hrest, hpoint]
      exact .decimal h.1 h.2
  · rintro (hrun | ⟨hrun, hfraction⟩)
    · rw [List.takeWhile_eq_self_iff.mpr hrun.ne_point,
        List.dropWhile_eq_nil_iff.mpr hrun.ne_point]
      exact (isDigits_iff _).mpr hrun
    · rw [List.takeWhile_append_of_pos hrun.ne_point,
        List.dropWhile_append_of_pos hrun.ne_point]
      simp [isDigits_iff, hrun, hfraction]

/-- The guard finds exactly the numerals, of the grammar and of the pattern.  An assignment to a
text is an error exactly if all of the text is a numeral or a reserved word, and the error is that
of a refused target with this text, at the position that it was asked for. -/
theorem check_numeral (name : String) :
    (isNumber name = true ↔ Numeral name.toList) ∧
      (isNumber name = true ↔ name.toList ∈ Numeral.pattern.matches') ∧
      ∀ pos d, check name pos = some d ↔
        (Numeral name.toList ∨ name ∈ reservedWords) ∧ d = ⟨.reservedTarget name, pos⟩ := by
  refine ⟨isNumber_iff name, (isNumber_iff name).trans Numeral.mem_pattern.symm, fun pos d => ?_⟩
  rw [check_eq, Option.ite_none_right_eq_some, isNumber_iff, or_comm, Option.some.injEq,
    eq_comm (b := d)]

/-- A part that is empty, another point, a sign, a line feed and a digit of another script. -/
example : isNumber "12" = true ∧ isNumber "12.50" = true ∧
    ∀ name ∈ ["", ".5", "1.", "1.2.3", "-1", "1\n", "1\u0663"], isNumber name = false := by decide

end Target
end ImpFront
