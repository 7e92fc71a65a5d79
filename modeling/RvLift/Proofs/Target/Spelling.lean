import Mathlib
import RvLift.Proofs.Target.Token
import RvLift.Proofs.Text.Characters

/-!
# Spelling

How the tokens of a text come out of the tokens of its parts. Letters and signs end at blanks and
at most marks of punctuation, so a part can be scanned by itself when such a character follows.
-/

namespace RvLift.Target

/-- The characters at which any token ends. -/
def delimiters : List Char := [' ', ')', ']', ';', ',', ':']

namespace Scanner

/-- Scanning two texts in turn. -/
theorem scan_append (scanner : Scanner) (first second : List Char) :
    scanner.scan (first ++ second) = (scanner.scan first).bind fun middle => middle.scan second :=
  List.foldlM_append

/-- Scanning the first character and then the others. -/
theorem scan_cons (scanner : Scanner) (character : Char) (rest : List Char) :
    scanner.scan (character :: rest) = (scanner.step character).bind fun next => next.scan rest :=
  rfl

/-- A delimiter ends the token under way before it counts itself. -/
theorem step_of_settle {scanner settled : Scanner} {character : Char}
    (delimiter : character ∈ delimiters) (ends : scanner.settle = some settled) :
    scanner.step character = settled.step character := by
  have plain : isLetter character = false ∧ isSign character = false ∧ character ≠ '\x22' ∧
      character ≠ '.' ∧ character ≠ '(' ∧ character ≠ '\\' ∧ character ≠ '\n' := by
    simp only [delimiters, List.mem_cons, List.not_mem_nil, or_false] at delimiter
    rcases delimiter with rfl | rfl | rfl | rfl | rfl | rfl <;> decide
  obtain ⟨letter, sign, quote, period, opening, backslash, feed⟩ := plain
  obtain ⟨run, directive, escaped, tokens⟩ := scanner
  cases escaped with
  | true => cases ends
  | false =>
    cases run with
    | margin => cases ends; rfl
    | blank => cases ends; rfl
    | letters text =>
      cases found : Token.ofLetters? text with
      | none => simp [settle, found] at ends
      | some token =>
        simp only [settle, found, Option.map_some, Bool.false_eq_true, if_false,
          Option.some.injEq] at ends
        subst ends
        simp [step, take, clashes, settle, found, push, letter, sign, quote, period, opening,
          backslash, feed]
    | signs text =>
      cases found : Token.ofSigns? text with
      | none => simp [settle, found] at ends
      | some token =>
        simp only [settle, found, Option.map_some, Bool.false_eq_true, if_false,
          Option.some.injEq] at ends
        subst ends
        simp [step, take, settle, found, push, sign, backslash, feed]
    | quoted text => cases ends
    | comment => cases ends

end Scanner

/-- A text on a line that is made up of tokens, the last of which a delimiter may have to end. -/
def Spells (directive : Bool) (text : List Char) (tokens : List Token) : Prop :=
  ∀ previous, ((Scanner.between directive previous).scan text).bind Scanner.settle =
    some (.between directive (tokens.reverse ++ previous))

/-- A text that leads from a place back to it, with its tokens added. -/
def Carries (place : List Token → Scanner) (text : List Char) (tokens : List Token) : Prop :=
  ∀ previous, (place previous).scan text = some (place (tokens.reverse ++ previous))

/-- A text on a line that is made up of tokens, the last of which has ended. -/
def Closes (directive : Bool) (text : List Char) (tokens : List Token) : Prop :=
  Carries (.between directive) text tokens

section Places

variable {place : List Token → Scanner}

/-- One text behind another. -/
theorem Carries.append {first second : List Char} {tokens others : List Token}
    (carries : Carries place first tokens) (follows : Carries place second others) :
    Carries place (first ++ second) (tokens ++ others) := by
  intro previous
  rw [Scanner.scan_append, carries, Option.bind_some, follows, List.reverse_append,
    List.append_assoc]

/-- Any number of texts one behind another. -/
theorem Carries.flatMap {α : Type} {items : List α} {text : α → List Char}
    {tokens : α → List Token} (each : ∀ item ∈ items, Carries place (text item) (tokens item)) :
    Carries place (items.flatMap text) (items.flatMap tokens) := by
  induction items with
  | nil => exact fun _ => rfl
  | cons item items hypothesis =>
    have first := each item (List.mem_cons_self ..)
    have later := hypothesis fun other member => each other (List.mem_cons_of_mem _ member)
    rw [List.flatMap_cons, List.flatMap_cons]
    exact first.append later

end Places

section Composition

variable {directive : Bool} {first second rest : List Char} {tokens others : List Token}

/-- Tokens that have ended stay as they are. -/
theorem Closes.spells (closes : Closes directive first tokens) : Spells directive first tokens := by
  intro previous
  rw [closes]
  rfl

/-- A text behind ended tokens is scanned by itself. -/
theorem Closes.scan (closes : Closes directive first tokens) (previous : List Token) :
    (Scanner.between directive previous).scan (first ++ rest) =
      (Scanner.between directive (tokens.reverse ++ previous)).scan rest := by
  rw [Scanner.scan_append, closes]
  rfl

/-- A text that starts with a delimiter is scanned by itself. -/
theorem Spells.scan (spells : Spells directive first tokens) {delimiter : Char}
    (ends : delimiter ∈ delimiters) (previous : List Token) :
    (Scanner.between directive previous).scan (first ++ delimiter :: rest) =
      (Scanner.between directive (tokens.reverse ++ previous)).scan (delimiter :: rest) := by
  obtain ⟨scanner, scanned, settled⟩ := Option.bind_eq_some_iff.1 (spells previous)
  rw [Scanner.scan_append, scanned, Option.bind_some, Scanner.scan_cons, Scanner.scan_cons,
    Scanner.step_of_settle ends settled]

/-- Ended tokens in front of ended tokens. -/
theorem Closes.append (closes : Closes directive first tokens)
    (follows : Closes directive second others) :
    Closes directive (first ++ second) (tokens ++ others) :=
  Carries.append closes follows

/-- Ended tokens in front of tokens, the last of which a delimiter may have to end. -/
theorem Closes.append_spells (closes : Closes directive first tokens)
    (follows : Spells directive second others) :
    Spells directive (first ++ second) (tokens ++ others) := by
  intro previous
  rw [closes.scan, follows, List.reverse_append, List.append_assoc]

/-- Tokens that a delimiter ends, in front of ended tokens. -/
theorem Spells.append_closes (spells : Spells directive first tokens) {delimiter : Char}
    (ends : delimiter ∈ delimiters) (follows : Closes directive (delimiter :: second) others) :
    Closes directive (first ++ delimiter :: second) (tokens ++ others) := by
  intro previous
  rw [spells.scan ends, follows, List.reverse_append, List.append_assoc]

/-- Tokens that a delimiter ends, in front of tokens. -/
theorem Spells.append (spells : Spells directive first tokens) {delimiter : Char}
    (ends : delimiter ∈ delimiters) (follows : Spells directive (delimiter :: second) others) :
    Spells directive (first ++ delimiter :: second) (tokens ++ others) := by
  intro previous
  rw [spells.scan ends, follows, List.reverse_append, List.append_assoc]

end Composition

section Letters

variable {directive : Bool} {letters : List Char} {token : Token}

/-- Letters go on running together. -/
theorem Scanner.scan_letters (start : List Char) (previous : List Token)
    (all : ∀ character ∈ letters, isLetter character = true) :
    Scanner.scan ⟨.letters start, directive, false, previous⟩ letters =
      some ⟨.letters (start ++ letters), directive, false, previous⟩ := by
  induction letters generalizing start with
  | nil => simp [scan]
  | cons letter rest hypothesis =>
    have first := all letter (List.mem_cons_self ..)
    have backslash : letter ≠ '\\' := by rintro rfl; contradiction
    have feed : letter ≠ '\n' := by rintro rfl; contradiction
    rw [scan_cons]
    simp only [step, take, first, backslash, feed, Bool.false_eq_true, if_false, if_true,
      Option.bind_some]
    rw [hypothesis _ fun other member => all other (List.mem_cons_of_mem _ member)]
    simp

/-- A run of letters is the token of the run. -/
theorem spells_letters (all : ∀ character ∈ letters, isLetter character = true)
    (found : Token.ofLetters? letters = some token) (inhabited : letters ≠ []) :
    Spells directive letters [token] := by
  intro previous
  cases letters with
  | nil => exact absurd rfl inhabited
  | cons letter rest =>
    have first := all letter (List.mem_cons_self ..)
    have backslash : letter ≠ '\\' := by rintro rfl; contradiction
    have feed : letter ≠ '\n' := by rintro rfl; contradiction
    have blank : letter ≠ ' ' := by rintro rfl; contradiction
    have begins : (Scanner.between directive previous).step letter =
        some ⟨.letters [letter], directive, false, previous⟩ := by
      simp [Scanner.step, Scanner.take, Scanner.begin, Scanner.between, backslash, feed, blank,
        first]
    rw [Scanner.scan_cons, begins, Option.bind_some, Scanner.scan_letters _ _
      fun other member => all other (List.mem_cons_of_mem _ member), Option.bind_some]
    simp [Scanner.settle, found, Scanner.push, Scanner.between]

end Letters

section Constants

/-- The letters of a hexadecimal numeral. -/
theorem toList_hexNumeral (number : Nat) :
    (Text.hexNumeral number).toList = '0' :: 'x' :: Nat.toDigits 16 number := by
  simp [Text.hexNumeral, Text.hex, Text.padded, List.leftpad]

/-- A decimal numeral is made up of its digits, without padding. -/
theorem toList_decimal (number : Nat) :
    (Text.decimal number).toList = Nat.toDigits 10 number := by
  simp [Text.decimal, Text.padded, List.leftpad]

/-- The digits of a constant, without its suffix. -/
def Constant.digits (constant : Constant) : List Char :=
  match constant.radix with
  | .decimal => Nat.toDigits 10 constant.value
  | .hexadecimal => '0' :: 'x' :: Nat.toDigits 16 constant.value

/-- The letters of a constant. -/
theorem Constant.toList_text (constant : Constant) :
    constant.text.toList =
      if constant.unsigned then constant.digits ++ ['u'] else constant.digits := by
  obtain ⟨value, radix, unsigned⟩ := constant
  cases radix <;> cases unsigned <;> simp [text, digits, toList_hexNumeral, toList_decimal]

/-- A property of all digits and of the sign of a base holds of all digits of a constant. -/
theorem Constant.forall_mem_digits (constant : Constant) {property : Char → Prop}
    (digits : ∀ digit < 16, property digit.digitChar) (sign : property 'x') :
    ∀ character ∈ constant.digits, property character := by
  intro character member
  obtain ⟨value, radix, unsigned⟩ := constant
  cases radix with
  | decimal =>
    obtain ⟨digit, small, rfl⟩ := Text.exists_digit_of_mem_toDigits (by decide) member
    exact digits digit (by omega)
  | hexadecimal =>
    simp only [Constant.digits, List.mem_cons] at member
    obtain rfl | rfl | numeral := member
    · exact digits 0 (by decide)
    · exact sign
    · obtain ⟨digit, small, rfl⟩ := Text.exists_digit_of_mem_toDigits (by decide) numeral
      exact digits digit small

/-- A constant is made up of digits, the sign of its base and the suffix. -/
theorem Constant.consists_text (constant : Constant) {kind : Char → Bool}
    (digits : ∀ digit < 16, kind digit.digitChar = true) (sign : kind 'x' = true)
    (suffix : kind 'u' = true) : Text.Consists kind constant.text := by
  have figures : ∀ character ∈ constant.digits, kind character = true :=
    constant.forall_mem_digits digits sign
  rw [Text.consists_iff, Constant.toList_text]
  split
  · rw [List.forall_mem_append, List.forall_mem_singleton]
    exact ⟨figures, suffix⟩
  · exact figures

/-- The name of a register is made up of digits and what stands around them. -/
theorem consists_registerText (reg : Reg) {kind : Char → Bool}
    (opening : Text.Consists kind "core.regs[") (digits : ∀ digit < 10, kind digit.digitChar = true)
    (closing : Text.Consists kind "]") : Text.Consists kind (registerText reg) := by
  have numeral : Text.Consists kind (Text.decimal reg.index) :=
    Text.consists_padded (by decide) digits 0 _
  exact Text.consists_append.2 ⟨Text.consists_append.2 ⟨opening, numeral⟩, closing⟩

/-- The digits of a constant do not end in the suffix. -/
theorem Constant.getLast?_digits_ne (constant : Constant) :
    constant.digits.getLast? ≠ some 'u' := by
  intro last
  have others : ∀ character ∈ constant.digits, character ≠ 'u' :=
    constant.forall_mem_digits (by decide) (by decide)
  exact others 'u' (List.mem_of_getLast? last) rfl

/-- The digits of a constant spell it. -/
theorem Constant.ofDigits?_digits (constant : Constant) :
    ofDigits? constant.unsigned constant.digits = some constant := by
  obtain ⟨value, radix, unsigned⟩ := constant
  cases radix with
  | decimal =>
    have spelled := Text.value?_toDigits (by decide) (by decide : 10 ≤ 16) value
    obtain ⟨digit, small, rest, numeral, zero⟩ :=
      Text.exists_toDigits_eq_cons (by decide : 1 < 10) value
    by_cases none : digit = 0
    · obtain rfl := zero none
      simp [digits, ofDigits?]
    · have figure : ∀ digit < 10, digit ≠ 0 → digit.digitChar ≠ '0' := by decide
      have first := figure digit small none
      simp only [digits, numeral] at spelled ⊢
      unfold ofDigits?
      split
      · contradiction
      · rename_i same
        exact absurd (List.cons.inj same).1 first
      · rename_i same
        exact absurd (List.cons.inj same).1 first
      · rename_i same
        exact absurd (List.cons.inj same).1 first
      · rename_i same
        exact absurd (List.cons.inj same).1 first
      · rw [spelled]
        rfl
  | hexadecimal =>
    have spelled := Text.value?_toDigits (by decide) (by decide : 16 ≤ 16) value
    obtain ⟨digit, small, rest, numeral, -⟩ :=
      Text.exists_toDigits_eq_cons (by decide : 1 < 16) value
    simp only [digits, numeral] at spelled ⊢
    simp [ofDigits?, spelled]

/-- A constant begins with a figure. -/
theorem Constant.isDigit_head (constant : Constant) :
    ∃ figure rest, constant.text.toList = figure :: rest ∧ figure.isDigit = true := by
  have begins : ∃ figure rest, constant.digits = figure :: rest ∧ figure.isDigit = true := by
    obtain ⟨value, radix, unsigned⟩ := constant
    cases radix with
    | decimal =>
      have figures : ∀ digit < 10, digit.digitChar.isDigit = true := by decide
      obtain ⟨digit, small, rest, numeral, -⟩ :=
        Text.exists_toDigits_eq_cons (by decide : 1 < 10) value
      exact ⟨digit.digitChar, rest, numeral, figures digit small⟩
    | hexadecimal => exact ⟨'0', _, rfl, rfl⟩
  obtain ⟨figure, rest, digits, isDigit⟩ := begins
  rw [Constant.toList_text, digits]
  split
  · exact ⟨figure, rest ++ ['u'], rfl, isDigit⟩
  · exact ⟨figure, rest, rfl, isDigit⟩

/-- The letters of a constant are read as the constant. -/
theorem Token.ofLetters?_constant (constant : Constant) :
    ofLetters? constant.text.toList = some (.constant constant) := by
  obtain ⟨figure, rest, letters, isDigit⟩ := constant.isDigit_head
  have read : Constant.ofLetters? constant.text.toList = some constant := by
    rw [Constant.toList_text, Constant.ofLetters?]
    have spelled := constant.ofDigits?_digits
    cases unsigned : constant.unsigned with
    | true =>
      rw [unsigned] at spelled
      simp [spelled]
    | false =>
      rw [unsigned] at spelled
      simp [spelled, constant.getLast?_digits_ne]
  rw [ofLetters?, read, letters]
  simp [isDigit]

/-- A constant is one token. -/
theorem spells_constant (directive : Bool) (constant : Constant) :
    Spells directive constant.text.toList [.constant constant] := by
  obtain ⟨figure, rest, letters, -⟩ := constant.isDigit_head
  have consists : Text.Consists isLetter constant.text := constant.consists_text (by decide) rfl rfl
  refine spells_letters (Text.consists_iff.1 consists) (Token.ofLetters?_constant constant) ?_
  simp [letters]

end Constants

end RvLift.Target
