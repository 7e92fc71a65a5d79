import Mathlib
import RvLift.Proofs.Text.Characters

/-!
# Parentheses

Texts in which every parenthesis is closed and none is closed that is not open. What stands between
an opening parenthesis and the one that closes it is such a text, and so it can be cut out of a
longer text in one way only. A text without blanks and parentheses is cut out where the first of
them follows.
-/

namespace RvLift.Text

/-- Whether a character is not a parenthesis. -/
def isUnbracketed (character : Char) : Bool := character != '(' && character != ')'

/-- Whether a character is neither a blank nor a parenthesis. -/
def isSolid (character : Char) : Bool := character != ' ' && isUnbracketed character

/-- The number of open parentheses behind a character, if it does not close one that is not
open. -/
def takeParenthesis? (opened : Nat) (character : Char) : Option Nat :=
  if character = '(' then some (opened + 1)
  else if character = ')' then
    match opened with
    | 0 => none
    | opened + 1 => some opened
  else some opened

/-- The number of open parentheses behind a text, if it does not close one that is not open. -/
def openBehind? (opened : Nat) (text : List Char) : Option Nat :=
  text.foldlM takeParenthesis? opened

/-- Whether a text leaves as many parentheses open as there are in front of it, and closes none of
those. -/
def Balanced (text : String) : Prop :=
  ∀ opened, openBehind? opened text.toList = some opened

/-- Whether a text is empty or starts with a blank or a closing parenthesis. -/
def EndsOperand (text : String) : Prop :=
  ∀ character ∈ text.toList.head?, character = ' ' ∨ character = ')'

/-- Whether a text is a single word or balanced and in parentheses. -/
inductive Compact : String → Prop where
  /-- A single word. -/
  | solid {text : String} (consists : Consists isSolid text) : Compact text
  /-- A text in parentheses. -/
  | enclosed {inner : String} (balanced : Balanced inner) : Compact ("(" ++ inner ++ ")")

section Balance

variable {first second text firstRest secondRest : String}

/-- The parentheses of two texts are counted in turn. -/
theorem openBehind?_append (opened : Nat) (front back : List Char) :
    openBehind? opened (front ++ back) =
      (openBehind? opened front).bind fun middle => openBehind? middle back :=
  List.foldlM_append

/-- Balanced texts one behind the other. -/
theorem Balanced.append (balanced : Balanced first) (follows : Balanced second) :
    Balanced (first ++ second) := by
  intro opened
  rw [String.toList_append, openBehind?_append, balanced, Option.bind_some, follows]

/-- A balanced text in parentheses. -/
theorem Balanced.enclosed (balanced : Balanced text) : Balanced ("(" ++ text ++ ")") := by
  intro opened
  have entered : openBehind? opened "(".toList = some (opened + 1) := rfl
  have closed : openBehind? (opened + 1) ")".toList = some opened := rfl
  rw [String.toList_append, String.toList_append, openBehind?_append, openBehind?_append, entered,
    Option.bind_some, balanced, Option.bind_some, closed]

/-- A text without parentheses is balanced. -/
theorem Consists.balanced (consists : Consists isUnbracketed text) : Balanced text := by
  rw [consists_iff] at consists
  intro opened
  generalize text.toList = characters at consists
  induction characters with
  | nil => rfl
  | cons character rest hypothesis =>
    have own := consists character (List.mem_cons_self ..)
    have passed : takeParenthesis? opened character = some opened := by
      simp only [isUnbracketed, Bool.and_eq_true, bne_iff_ne] at own
      unfold takeParenthesis?
      rw [if_neg own.1, if_neg own.2]
    rw [openBehind?, List.foldlM_cons, passed]
    exact hypothesis fun other member => consists other (List.mem_cons_of_mem _ member)

/-- Nothing balanced begins with a balanced text and a parenthesis that closes none of its own. -/
theorem Balanced.ne_closed (balanced : Balanced text) (front : Balanced first)
    (rest : List Char) : text.toList ≠ first.toList ++ ')' :: rest := by
  intro same
  -- With nothing open in front, the parenthesis closes one that is not open.
  have behind := balanced 0
  rw [same, openBehind?_append, front] at behind
  cases behind

/-- What stands in front of a parenthesis that closes none of its own is determined by the whole. -/
theorem Balanced.cut (firstBalanced : Balanced first) (secondBalanced : Balanced second)
    (same : first.toList ++ ')' :: firstRest.toList = second.toList ++ ')' :: secondRest.toList) :
    first = second := by
  -- The longer text goes on behind the shorter one with what follows that one, a parenthesis.
  rcases List.append_eq_append_iff.1 same with ⟨middle, longer, behind⟩ | ⟨middle, longer, behind⟩
  · cases middle with
    | nil =>
      rw [List.append_nil] at longer
      exact (String.toList_inj.1 longer).symm
    | cons character middle =>
      obtain ⟨rfl, -⟩ := List.cons.inj behind
      exact absurd longer (secondBalanced.ne_closed firstBalanced middle)
  · cases middle with
    | nil =>
      rw [List.append_nil] at longer
      exact String.toList_inj.1 longer
    | cons character middle =>
      obtain ⟨rfl, -⟩ := List.cons.inj behind
      exact absurd longer (firstBalanced.ne_closed secondBalanced middle)

/-- A balanced text in parentheses can be cut out in one way only of what follows it. -/
theorem Balanced.cut_enclosed (firstBalanced : Balanced first) (secondBalanced : Balanced second)
    (same : "(" ++ first ++ ")" ++ firstRest = "(" ++ second ++ ")" ++ secondRest) :
    first = second := by
  have characters := congrArg String.toList same
  simp only [String.toList_append, List.append_assoc] at characters
  exact firstBalanced.cut secondBalanced (List.append_cancel_left characters)

end Balance

section Solidity

variable {text rest first second firstRest secondRest : String}

/-- Solid texts have no parentheses. -/
theorem Consists.unbracketed (solid : Consists isSolid text) : Consists isUnbracketed text := by
  refine solid.mono fun character own => ?_
  rw [isSolid, Bool.and_eq_true] at own
  exact own.2

/-- A solid text is what is in front of the blank or parenthesis that ends it. -/
theorem Consists.takeWhile_append (solid : Consists isSolid text) (ends : EndsOperand rest) :
    (text ++ rest).toList.takeWhile isSolid = text.toList := by
  have stops : rest.toList.takeWhile isSolid = [] := by
    unfold EndsOperand at ends
    generalize rest.toList = characters at ends
    cases characters with
    | nil => rfl
    | cons character characters =>
      obtain rfl | rfl := ends character rfl <;> rfl
  rw [String.toList_append, List.takeWhile_append_of_pos (consists_iff.1 solid), stops,
    List.append_nil]

/-- Solid texts can be cut out in one way only of what follows them. -/
theorem Consists.cut (firstSolid : Consists isSolid first) (secondSolid : Consists isSolid second)
    (firstEnds : EndsOperand firstRest) (secondEnds : EndsOperand secondRest)
    (same : first ++ firstRest = second ++ secondRest) : first = second := by
  rw [← String.toList_inj, ← firstSolid.takeWhile_append firstEnds, same,
    secondSolid.takeWhile_append secondEnds]

/-- A solid text and what follows it do not begin with an opening parenthesis. -/
theorem Consists.append_ne_opening (solid : Consists isSolid text) (ends : EndsOperand rest)
    (behind : String) : text ++ rest ≠ "(" ++ behind := by
  intro same
  have characters : text.toList ++ rest.toList = '(' :: behind.toList := by
    rw [← String.toList_append, same, String.toList_append]
    rfl
  cases front : text.toList with
  | nil =>
    rw [front, List.nil_append] at characters
    rcases ends '(' (characters ▸ rfl) with blank | closing
    · cases blank
    · cases closing
  | cons character later =>
    rw [front, List.cons_append] at characters
    obtain ⟨rfl, -⟩ := List.cons.inj characters
    exact solid.not_mem rfl (front ▸ List.mem_cons_self ..)

/-- Compact texts can be cut out in one way only of what follows them. -/
theorem Compact.cut (firstCompact : Compact first) (secondCompact : Compact second)
    (firstEnds : EndsOperand firstRest) (secondEnds : EndsOperand secondRest)
    (same : first ++ firstRest = second ++ secondRest) : first = second := by
  cases firstCompact with
  | solid firstSolid =>
    cases secondCompact with
    | solid secondSolid => exact firstSolid.cut secondSolid firstEnds secondEnds same
    | enclosed secondBalanced =>
      rw [String.append_assoc, String.append_assoc] at same
      exact absurd same (firstSolid.append_ne_opening firstEnds _)
  | enclosed firstBalanced =>
    cases secondCompact with
    | solid secondSolid =>
      rw [String.append_assoc, String.append_assoc] at same
      exact absurd same.symm (secondSolid.append_ne_opening secondEnds _)
    | enclosed secondBalanced => rw [firstBalanced.cut_enclosed secondBalanced same]

end Solidity

end RvLift.Text
