import Mathlib
import RvLift.Text.Digits
import RvLift.Text.Numeral

/-!
# Reading numerals back

The digits of a number spell the number, with any zeros in front of them. Digits are letters and
figures, and only zero begins with the figure zero.
-/

namespace RvLift.Text

/-- The number that digits of a base spell, read from the left. -/
def value? (radix : Nat) (digits : List Char) : Option Nat :=
  digits.foldlM (fun value character => (digit? radix character).map (value * radix + ·)) 0

section Digits

variable {radix : Nat}

/-- A digit is read as its value. -/
theorem digit?_digitChar {number : Nat} (small : number < radix) (bound : radix ≤ 16) :
    digit? radix number.digitChar = some number := by
  have hexadecimal : ∀ number < 16, digitValue? number.digitChar = some number := by decide
  rw [digit?, hexadecimal number (by omega), Option.filter_some, if_pos (decide_eq_true small)]

/-- The digits of a number spell it. -/
theorem value?_toDigits (large : 1 < radix) (bound : radix ≤ 16) (number : Nat) :
    value? radix (Nat.toDigits radix number) = some number := by
  induction number using Nat.base_induction radix large with
  | single number small =>
    rw [Nat.toDigits_of_lt_base small]
    simp [value?, digit?_digitChar small bound]
  | digit number last small positive hypothesis =>
    rw [← Nat.toDigits_append_toDigits large positive small, Nat.toDigits_of_lt_base small, value?,
      List.foldlM_append, ← value?, hypothesis]
    simp [digit?_digitChar small bound, Nat.mul_comm]

/-- Zeros in front of digits do not count. -/
theorem value?_replicate_append (large : 1 < radix) (bound : radix ≤ 16) (count : Nat)
    (digits : List Char) :
    value? radix (List.replicate count '0' ++ digits) = value? radix digits := by
  have zero : digit? radix '0' = some 0 := by
    have positive : 0 < radix := by omega
    exact digit?_digitChar positive bound
  induction count with
  | zero => rfl
  | succ count hypothesis =>
    rw [← hypothesis, List.replicate_succ, List.cons_append, value?, List.foldlM_cons, zero]
    simp [value?]

/-- A padded numeral spells its number. -/
theorem value?_padded (large : 1 < radix) (bound : radix ≤ 16) (width number : Nat) :
    value? radix (padded radix width number).toList = some number := by
  rw [padded, String.toList_ofList, List.leftpad, value?_replicate_append large bound,
    value?_toDigits large bound]

/-- A numeral that fits its width fills it. -/
theorem length_padded (large : 1 < radix) {width number : Nat} (positive : 0 < width)
    (small : number < radix ^ width) : (padded radix width number).toList.length = width := by
  have digits := (Nat.length_toDigits_le_iff large positive).2 small
  rw [padded, String.toList_ofList, List.length_leftpad, Nat.max_eq_left digits]

/-- Numerals of one width and base tell numbers apart. -/
theorem padded_injective (large : 1 < radix) (bound : radix ≤ 16) (width : Nat) :
    (padded radix width).Injective := by
  intro first second same
  have read := value?_padded large bound width first
  rw [same, value?_padded large bound] at read
  exact (Option.some.inj read).symm

/-- The digits of a number are digit characters. -/
theorem exists_digit_of_mem_toDigits (large : 1 < radix) {number : Nat} {character : Char}
    (member : character ∈ Nat.toDigits radix number) :
    ∃ digit < radix, character = digit.digitChar := by
  induction number using Nat.base_induction radix large with
  | single number small =>
    rw [Nat.toDigits_of_lt_base small, List.mem_singleton] at member
    exact ⟨number, small, member⟩
  | digit number last small positive hypothesis =>
    rw [← Nat.toDigits_append_toDigits large positive small, Nat.toDigits_of_lt_base small,
      List.mem_append, List.mem_singleton] at member
    obtain earlier | final := member
    · exact hypothesis earlier
    · exact ⟨last, small, final⟩

/-- A property of all digits holds of every character of a padded numeral. -/
theorem all_padded (large : 1 < radix) (width number : Nat) {property : Char → Prop}
    (digits : ∀ digit < radix, property digit.digitChar) :
    ∀ character ∈ (padded radix width number).toList, property character := by
  intro character member
  rw [padded, String.toList_ofList, List.leftpad, List.mem_append] at member
  obtain zeros | numeral := member
  · rw [List.eq_of_mem_replicate zeros]
    exact digits 0 (by omega)
  · obtain ⟨digit, small, rfl⟩ := exists_digit_of_mem_toDigits large numeral
    exact digits digit small

/-- A numeral has a first digit, which is zero only for the number zero. -/
theorem exists_toDigits_eq_cons (large : 1 < radix) (number : Nat) :
    ∃ digit < radix, ∃ rest, Nat.toDigits radix number = digit.digitChar :: rest ∧
      (digit = 0 → number = 0) := by
  induction number using Nat.base_induction radix large with
  | single number small => exact ⟨number, small, [], Nat.toDigits_of_lt_base small, id⟩
  | digit number last small positive hypothesis =>
    obtain ⟨first, digit, rest, digits, zero⟩ := hypothesis
    refine ⟨first, digit, rest ++ Nat.toDigits radix last, ?_, fun none => ?_⟩
    · rw [← Nat.toDigits_append_toDigits large positive small, digits, List.cons_append]
    · exact absurd (zero none) (Nat.ne_of_gt positive)

end Digits

/-- Decimal numerals tell numbers apart. -/
theorem decimal_injective : decimal.Injective :=
  padded_injective (by decide) (by decide) 0

/-- Hexadecimal numerals tell numbers apart. -/
theorem hexNumeral_injective : hexNumeral.Injective := by
  intro first second same
  rw [hexNumeral, hexNumeral, String.append_right_inj] at same
  exact padded_injective (by decide) (by decide) 0 same

/-- Signed numerals tell integers apart: only negative ones have a sign. -/
theorem signed_injective : signed.Injective := by
  have figures (number : Nat) : '-' ∉ (decimal number).toList := by
    have others : ∀ character ∈ (decimal number).toList, character ≠ '-' :=
      all_padded (by decide) 0 number (by decide)
    exact fun member => others '-' member rfl
  have sign (number : Nat) : '-' ∈ ("-" ++ decimal number).toList := by simp
  intro first second same
  cases first with
  | ofNat first =>
    cases second with
    | ofNat second => exact congrArg Int.ofNat (decimal_injective same)
    | negSucc second =>
      change decimal first = "-" ++ decimal (second + 1) at same
      exact absurd (same ▸ sign (second + 1)) (figures first)
  | negSucc first =>
    cases second with
    | ofNat second =>
      change "-" ++ decimal (first + 1) = decimal second at same
      exact absurd (same ▸ sign (first + 1)) (figures second)
    | negSucc second =>
      change "-" ++ decimal (first + 1) = "-" ++ decimal (second + 1) at same
      rw [String.append_right_inj] at same
      exact congrArg Int.negSucc (Nat.succ.inj (decimal_injective same))

end RvLift.Text
