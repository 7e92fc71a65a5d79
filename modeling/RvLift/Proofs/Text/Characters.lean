import Mathlib
import RvLift.Instruction.Decode
import RvLift.Proofs.Text.Digits

/-!
# Characters of texts

Texts made up of characters of one kind: numerals of digits, operands of letters, figures and a few
signs. Plain texts, without ends of lines and without backslashes, which would join the next line to
them, stay on one line wherever they are put.
-/

namespace RvLift

namespace Text

/-- Whether every character of a text is of a kind. -/
def Consists (kind : Char → Bool) (text : String) : Prop := text.toList.all kind = true

/-- Whether a character neither ends a line nor joins the next one to it. -/
def isPlain (character : Char) : Bool :=
  character != '\n' && character != '\r' && character != '\\'

/-- Whether a text has neither ends of lines nor backslashes. -/
def Plain (text : String) : Prop := Consists isPlain text

/-- Whether a character can stand in an operand. -/
def isOperand (character : Char) : Bool :=
  character.isLower || character.isDigit || ['-', '(', ')'].contains character

section Kinds

variable {kind other : Char → Bool} {text first second : String}

/-- The characters of a text of one kind. -/
theorem consists_iff : Consists kind text ↔ ∀ character ∈ text.toList, kind character = true :=
  List.all_eq_true

/-- Texts of one kind one behind the other. -/
@[simp] theorem consists_append :
    Consists kind (first ++ second) ↔ Consists kind first ∧ Consists kind second := by
  simp [Consists, List.all_append]

/-- A kind of characters is part of another one. -/
theorem Consists.mono (consists : Consists kind text)
    (included : ∀ character, kind character = true → other character = true) :
    Consists other text := by
  rw [consists_iff] at consists ⊢
  exact fun character member => included character (consists character member)

/-- A character of another kind is not in a text. -/
theorem Consists.not_mem (consists : Consists kind text) {character : Char}
    (foreign : kind character = false) : character ∉ text.toList := by
  intro member
  have own := consists_iff.1 consists character member
  rw [foreign] at own
  cases own

/-- Texts one behind the other are plain exactly if each of them is. -/
@[simp] theorem plain_append : Plain (first ++ second) ↔ Plain first ∧ Plain second :=
  consists_append

/-- A text of a kind without ends of lines and backslashes is plain. -/
theorem Consists.plain (consists : Consists kind text) (feed : kind '\n' = false)
    (carriage : kind '\r' = false) (backslash : kind '\\' = false) : Plain text := by
  refine consists.mono fun character own => ?_
  have differs {foreign : Char} (other : kind foreign = false) : character ≠ foreign := by
    rintro rfl
    rw [other] at own
    cases own
  simp [isPlain, differs feed, differs carriage, differs backslash]

end Kinds

section Numerals

variable {kind : Char → Bool}

/-- Numerals are made up of digits. -/
theorem consists_padded {radix : Nat} (large : 1 < radix)
    (digits : ∀ digit < radix, kind digit.digitChar = true) (width number : Nat) :
    Consists kind (padded radix width number) := by
  rw [consists_iff]
  exact all_padded large width number digits

/-- Signed numerals are made up of digits and a minus sign. -/
theorem consists_signed (digits : ∀ digit < 10, kind digit.digitChar = true)
    (sign : kind '-' = true) (number : Int) : Consists kind (signed number) := by
  cases number with
  | ofNat number => exact consists_padded (by decide) digits 0 number
  | negSucc number =>
    have minus : Consists kind "-" := by simp [Consists, sign]
    exact consists_append.2 ⟨minus, consists_padded (by decide) digits 0 (number + 1)⟩

/-- Numerals are plain. -/
theorem plain_padded {radix : Nat} (large : 1 < radix) (bound : radix ≤ 16)
    (width number : Nat) : Plain (padded radix width number) := by
  have digits : ∀ digit < 16, isPlain digit.digitChar = true := by decide
  exact consists_padded large (fun digit small => digits digit (by omega)) width number

/-- Decimal numerals are plain. -/
@[simp] theorem plain_decimal (number : Nat) : Plain (decimal number) :=
  plain_padded (by decide) (by decide) 0 number

/-- Hexadecimal numerals of eight digits are plain. -/
@[simp] theorem plain_hex8 (number : Nat) : Plain (hex8 number) :=
  plain_padded (by decide) (by decide) 8 number

/-- Addresses are plain. -/
@[simp] theorem plain_address (number : Nat) : Plain (address number) := by
  have sign : Plain "0x" := rfl
  exact plain_append.2 ⟨sign, plain_hex8 number⟩

end Numerals

end Text

open Text

/-- The wording of a decoding error is plain. -/
theorem DecodeError.plain_message (error : DecodeError) : Plain error.message := by
  have opcodeText : Plain "unsupported opcode 0x" := rfl
  have functText : Plain "unsupported funct3 0b" := rfl
  have forText : Plain " for opcode 0x" := rfl
  have wordText : Plain " (word " := rfl
  have closing : Plain ")" := rfl
  have digits (width number : Nat) : Plain (padded 16 width number) :=
    plain_padded (by decide) (by decide) width number
  cases error with
  | unknownOpcode pc word opcode =>
    change Plain (_ ++ _ ++ _ ++ _ ++ _)
    simp only [plain_append]
    exact ⟨⟨⟨⟨opcodeText, digits _ _⟩, wordText⟩, plain_address _⟩, closing⟩
  | unknownFunct pc word opcode funct3 =>
    have code : Plain (padded 2 3 funct3.toNat) := plain_padded (by decide) (by decide) _ _
    change Plain (_ ++ _ ++ _ ++ _ ++ _ ++ _ ++ _)
    simp only [plain_append]
    exact ⟨⟨⟨⟨⟨⟨functText, code⟩, forText⟩, digits _ _⟩, wordText⟩, plain_address _⟩, closing⟩

end RvLift
