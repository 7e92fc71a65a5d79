import Mathlib
import RvLift.Proofs.Text.Characters
import RvLift.Text.Lines

/-!
# Lines and comments

A text put together from lines, each with a line feed behind it, has these lines. A comment goes
from `//` to the end of its line. Bare texts have no comment, and open none together with bare texts
beside them.
-/

namespace RvLift.Text

/-- Whether a character can stand inside of a line. -/
def isInline (character : Char) : Bool := character != '\n' && character != '\r'

/-- Whether a character can stand anywhere in a line without opening a comment. -/
def isSlashless (character : Char) : Bool := isInline character && character != '/'

/-- The characters of a line in front of its first `//`. -/
def codePart : List Char → List Char
  | [] => []
  | '/' :: '/' :: _ => []
  | character :: rest => character :: codePart rest

/-- A text with everything from the first `//` of each line on removed. -/
def withoutComments (text : String) : String :=
  String.join ((lines text).map fun line => String.ofList (codePart line.toList) ++ "\n")

/-- Whether a line is, behind blanks, a comment that has no line feed and does not end in a
backslash. -/
def IsComment (line : String) : Prop :=
  ∃ blanks comment, line.toList = List.replicate blanks ' ' ++ comment ∧
    ['/', '/'] <+: comment ∧ '\n' ∉ comment ∧ comment.getLast? ≠ some '\\'

/-- Whether a text keeps to its line, has no two slashes side by side and none at either end. -/
structure Bare (text : String) : Prop where
  /-- No character ends a line. -/
  inline : Consists isInline text
  /-- Every slash has other characters beside it. -/
  separate : text.toList.IsChain fun first second => ¬ (first = '/' ∧ second = '/')
  /-- The first character is no slash. -/
  front : text.toList.head? ≠ some '/'
  /-- The last character is no slash. -/
  back : text.toList.getLast? ≠ some '/'

section Lines

variable {line : List Char}

/-- Characters inside of a line are put in front of what follows. -/
theorem linesBehind_append (inline : ∀ character ∈ line, isInline character = true)
    (start rest : List Char) :
    linesBehind start (line ++ rest) = linesBehind (line.reverse ++ start) rest := by
  induction line generalizing start with
  | nil => rfl
  | cons character line hypothesis =>
    obtain ⟨feed, -⟩ : character ≠ '\n' ∧ character ≠ '\r' := by
      simpa [isInline] using inline character (List.mem_cons_self ..)
    have later := hypothesis fun other member => inline other (List.mem_cons_of_mem _ member)
    rw [List.cons_append, linesBehind.eq_3 _ _ _ feed, later]
    simp

/-- A line without carriage returns loses none. -/
theorem withoutReturn_eq (inline : ∀ character ∈ line, isInline character = true) :
    withoutReturn line = line := by
  cases line with
  | nil => rfl
  | cons character line =>
    obtain ⟨-, carriage⟩ : character ≠ '\n' ∧ character ≠ '\r' := by
      simpa [isInline] using inline character (List.mem_cons_self ..)
    exact withoutReturn.eq_2 _ fun _ same => carriage (List.cons.inj same).1

/-- A plain text keeps to its line. -/
theorem Plain.inline {text : String} (plain : Plain text) : Consists isInline text :=
  Consists.mono plain fun _ own => (Bool.and_eq_true_iff.1 own).1

/-- A text has the lines that it is put together from. -/
theorem lines_join {texts : List String} (inline : ∀ text ∈ texts, Consists isInline text) :
    lines (String.join (texts.map (· ++ "\n"))) = texts := by
  induction texts with
  | nil => rfl
  | cons text texts hypothesis =>
    have own := consists_iff.1 (inline text (List.mem_cons_self ..))
    have reversed : ∀ character ∈ text.toList.reverse, isInline character = true :=
      fun character member => own character (List.mem_reverse.1 member)
    have later := hypothesis fun other member => inline other (List.mem_cons_of_mem _ member)
    have split : (String.join ((text :: texts).map (· ++ "\n"))).toList =
        text.toList ++ '\n' :: (String.join (texts.map (· ++ "\n"))).toList := by
      simp
    rw [lines, split, linesBehind_append own, List.append_nil, linesBehind,
      withoutReturn_eq reversed, List.reverse_reverse, String.ofList_toList, ← lines, later]

end Lines

section Bare

variable {text first second : String}

/-- A text without ends of lines and slashes is bare. -/
theorem Consists.bare (consists : Consists isSlashless text) : Bare text := by
  have missing : '/' ∉ text.toList := consists.not_mem rfl
  refine ⟨consists.mono fun character own => ?_, ?_, ?_, ?_⟩
  · exact (Bool.and_eq_true_iff.1 own).1
  · refine List.isChain_iff_forall_rel_of_append_cons_cons.2 ?_
    rintro character other before rest whole ⟨rfl, -⟩
    exact missing (by simp [whole])
  · exact fun found => missing (List.mem_of_head? found)
  · exact fun found => missing (List.mem_of_getLast? found)

/-- Bare texts one behind the other. -/
theorem Bare.append (bare : Bare first) (follows : Bare second) : Bare (first ++ second) where
  inline := consists_append.2 ⟨bare.inline, follows.inline⟩
  separate := by
    rw [String.toList_append, List.isChain_append]
    refine ⟨bare.separate, follows.separate, ?_⟩
    rintro last found other - ⟨rfl, -⟩
    exact bare.back found
  front := by
    intro found
    rw [String.toList_append, List.head?_append] at found
    obtain own | ⟨-, other⟩ := Option.or_eq_some_iff.1 found
    · exact bare.front own
    · exact follows.front other
  back := by
    intro found
    rw [String.toList_append, List.getLast?_append] at found
    obtain own | ⟨-, other⟩ := Option.or_eq_some_iff.1 found
    · exact follows.back own
    · exact bare.back other

/-- Numerals are bare. -/
theorem bare_padded {radix : Nat} (large : 1 < radix) (bound : radix ≤ 16) (width number : Nat) :
    Bare (padded radix width number) := by
  have digits : ∀ digit < 16, isSlashless digit.digitChar = true := by decide
  have consists : Consists isSlashless (padded radix width number) :=
    consists_padded large (fun digit small => digits digit (by omega)) width number
  exact consists.bare

end Bare

section Comments

variable {text line : String}

/-- A bare text has no comment. -/
theorem Bare.slashes_apart (bare : Bare text) : ¬ ['/', '/'] <:+: text.toList := by
  intro opener
  have pair := List.IsChain.infix bare.separate opener
  exact List.isChain_pair.1 pair ⟨rfl, rfl⟩

/-- A plain text that begins with two slashes is a comment, behind any number of blanks. -/
theorem isComment_of_plain (plain : Plain text) (opener : ['/', '/'] <+: text.toList)
    {blanks : Nat} (indented : line.toList = List.replicate blanks ' ' ++ text.toList) :
    IsComment line := by
  refine ⟨blanks, text.toList, indented, opener, plain.not_mem rfl, ?_⟩
  exact fun found => plain.not_mem rfl (List.mem_of_getLast? found)

/-- Only blanks stand in front of a comment. -/
theorem codePart_comment (blanks : Nat) {comment : List Char} (opener : ['/', '/'] <+: comment) :
    codePart (List.replicate blanks ' ' ++ comment) = List.replicate blanks ' ' := by
  induction blanks with
  | zero =>
    obtain ⟨rest, rfl⟩ := opener
    rfl
  | succ blanks hypothesis =>
    rw [List.replicate_succ, List.cons_append, codePart, hypothesis]
    simp

/-- A comment has two slashes in it. -/
theorem IsComment.slashes (comment : IsComment line) : ['/', '/'] <:+: line.toList := by
  obtain ⟨blanks, text, whole, opener, -⟩ := comment
  rw [whole]
  exact opener.isInfix.trans (List.infix_append_right ..)

end Comments

end RvLift.Text
