import Mathlib
import RvLift.Proofs.Target.Labels

/-!
# Landmarks of source texts

The labels, the cases and the jumps of a source text, found by looking at each token and the one in
front of it, without reading the text as a whole. A name in front of a colon is a label, unless the
colon belongs to a conditional that is still open.

In the source text of an image every label that a jump names is defined, and the cases of the
dispatch switch stand in front of all labels and lead to each of them in order.
-/

namespace RvLift.Target

/-- What a source text defines or jumps to. -/
inductive Landmark where
  /-- A label. -/
  | label (name : String)
  /-- A case of a switch. -/
  | entry (value : Constant)
  /-- A jump to a label. -/
  | goto (name : String)
  deriving DecidableEq, Repr

namespace Landmark

/-- The name of a label. -/
def label? : Landmark → Option String
  | .label name => some name
  | .entry _ | .goto _ => none

/-- The value of a case. -/
def constant? : Landmark → Option Constant
  | .entry value => some value
  | .label _ | .goto _ => none

/-- The name that a jump leads to. -/
def goto? : Landmark → Option String
  | .goto name => some name
  | .label _ | .entry _ => none

/-- The landmark that a token completes behind another token, where `choices` conditionals have been
opened and not divided by their colons. -/
def at? (choices : Nat) (previous : Token) : Token → Option Landmark
  | .constant value => if previous = .word "case" then some (.entry value) else none
  | .word name => if previous = .word "goto" then some (.goto name) else none
  | .mark ":" =>
    match choices, previous with
    | 0, .word name => if name = "default" then none else some (.label name)
    | _, _ => none
  | _ => none

/-- The number of open conditionals behind a token. -/
def choicesAfter (choices : Nat) : Token → Nat
  | .mark "?" => choices + 1
  | .mark ":" => choices - 1
  | _ => choices

end Landmark

/-- The landmarks of tokens that stand behind another token. -/
def landmarksFrom (choices : Nat) (previous : Token) : List Token → List Landmark
  | [] => []
  | token :: rest =>
    (Landmark.at? choices previous token).toList ++
      landmarksFrom (Landmark.choicesAfter choices token) token rest

/-- The landmarks of a text, in order. -/
def landmarks (tokens : List Token) : List Landmark := landmarksFrom 0 .lineEnd tokens

/-- The names of the labels that a text defines, in order. -/
def labelsIn (tokens : List Token) : List String := (landmarks tokens).filterMap Landmark.label?

/-- The values of the cases in a text, in order. -/
def casesIn (tokens : List Token) : List Constant := (landmarks tokens).filterMap Landmark.constant?

/-- The names that the jumps in a text lead to, in order. -/
def jumpsIn (tokens : List Token) : List String := (landmarks tokens).filterMap Landmark.goto?

/-- Whether a token has no bearing on the token behind it, other than as the name of a label. -/
def Token.Idle (token : Token) : Prop := token ≠ .word "case" ∧ token ≠ .word "goto"
  deriving Decidable

/-- Whether a token has no bearing on landmarks, other than as a name or a value. -/
def Token.Inert (token : Token) : Prop := token.Idle ∧ token ≠ .mark ":" ∧ token ≠ .mark "?"
  deriving Decidable

/-- Whether tokens show given landmarks wherever they stand inside of `choices` conditionals, and
leave these as they are. -/
def Shows (choices : Nat) (tokens : List Token) (found : List Landmark) : Prop :=
  ∀ previous, previous.Idle → ∃ last, last.Idle ∧ ∀ rest,
    landmarksFrom choices previous (tokens ++ rest) = found ++ landmarksFrom choices last rest

section Composition

variable {choices : Nat} {tokens others : List Token} {found more : List Landmark}

/-- No tokens show nothing. -/
theorem shows_nil : Shows choices [] [] := fun previous idle => ⟨previous, idle, fun _ => rfl⟩

/-- Tokens behind others. -/
theorem Shows.append (shows : Shows choices tokens found) (follows : Shows choices others more) :
    Shows choices (tokens ++ others) (found ++ more) := by
  intro previous idle
  obtain ⟨middle, middleIdle, first⟩ := shows previous idle
  obtain ⟨last, lastIdle, second⟩ := follows middle middleIdle
  refine ⟨last, lastIdle, fun rest => ?_⟩
  rw [List.append_assoc, first, second, List.append_assoc]

/-- The tokens of any number of items. -/
theorem Shows.flatMap {α : Type} {items : List α} {tokens : α → List Token}
    {found : α → List Landmark} (each : ∀ item ∈ items, Shows choices (tokens item) (found item)) :
    Shows choices (items.flatMap tokens) (items.flatMap found) := by
  induction items with
  | nil => exact shows_nil
  | cons item items hypothesis =>
    have first := each item (List.mem_cons_self ..)
    have later := hypothesis fun other member => each other (List.mem_cons_of_mem _ member)
    rw [List.flatMap_cons, List.flatMap_cons]
    exact first.append later

/-- A token without bearing shows nothing. -/
theorem Token.Inert.shows {token : Token} (inert : token.Inert) : Shows choices [token] [] := by
  intro previous idle
  refine ⟨token, inert.1, fun rest => ?_⟩
  have nothing : Landmark.at? choices previous token = none := by
    unfold Landmark.at?
    split
    · exact if_neg idle.1
    · exact if_neg idle.2
    · exact absurd rfl inert.2.1
    · rfl
  have same : Landmark.choicesAfter choices token = choices := by
    unfold Landmark.choicesAfter
    split
    · exact absurd rfl inert.2.2
    · exact absurd rfl inert.2.1
    · rfl
  rw [List.singleton_append, landmarksFrom, nothing, same]
  rfl

/-- Tokens without bearing show nothing. -/
theorem shows_of_inert (inert : ∀ token ∈ tokens, token.Inert) : Shows choices tokens [] := by
  induction tokens with
  | nil => exact shows_nil
  | cons token tokens hypothesis =>
    have first : Shows choices [token] [] := (inert token (List.mem_cons_self ..)).shows
    exact first.append (hypothesis fun other member => inert other (List.mem_cons_of_mem _ member))

end Composition

/-- An expression shows nothing: the colons in it divide its own conditionals. -/
theorem Expr.shows (choices : Nat) (expr : Expr) : Shows choices expr.tokens [] := by
  induction expr generalizing choices with
  | constant value => exact shows_of_inert (by simp [tokens, Token.Inert, Token.Idle])
  | leastInt32 => exact shows_of_inert (by decide)
  | negate operand hypothesis =>
    have sign : (Token.mark "-").Inert := by decide
    exact sign.shows.append (hypothesis choices)
  | temp source => exact shows_of_inert (by cases source <;> decide)
  | register source => exact shows_of_inert (by simp [tokens, Token.Inert, Token.Idle])
  | load width offset hypothesis =>
    have opening : Shows choices [.word (loadName width), .mark "("] [] :=
      shows_of_inert (by cases width <;> decide)
    have closing : Shows choices [.mark ")"] [] := shows_of_inert (by decide)
    exact opening.append ((hypothesis choices).append closing)
  | cast type operand hypothesis =>
    have opening : Shows choices [.mark "(", .word type.text, .mark ")"] [] :=
      shows_of_inert (by cases type <;> decide)
    exact opening.append (hypothesis choices)
  | binary op left right leftHypothesis rightHypothesis =>
    have sign : (Token.mark op.text).Inert := by cases op <;> decide
    exact (leftHypothesis choices).append (sign.shows.append (rightHypothesis choices))
  | conditional condition whenTrue whenFalse conditionHypothesis trueHypothesis falseHypothesis =>
    intro previous idle
    obtain ⟨tested, testedIdle, test⟩ := conditionHypothesis choices previous idle
    -- The first branch stands inside of one more conditional, which the colon divides.
    obtain ⟨chosen, chosenIdle, first⟩ := trueHypothesis (choices + 1) (.mark "?") (by decide)
    obtain ⟨last, lastIdle, second⟩ := falseHypothesis choices (.mark ":") (by decide)
    refine ⟨last, lastIdle, fun rest => ?_⟩
    have opened (behind : List Token) : landmarksFrom choices tested (.mark "?" :: behind) =
        landmarksFrom (choices + 1) (.mark "?") behind := rfl
    have divided (behind : List Token) : landmarksFrom (choices + 1) chosen (.mark ":" :: behind) =
        landmarksFrom choices (.mark ":") behind := rfl
    simp only [tokens, List.append_assoc, List.cons_append, List.nil_append, test, opened, first,
      divided, second]
  | paren inner hypothesis =>
    have opening : Shows choices [.mark "("] [] := shows_of_inert (by decide)
    have closing : Shows choices [.mark ")"] [] := shows_of_inert (by decide)
    exact opening.append ((hypothesis choices).append closing)

section Parts

/-- The landmarks of jumps to labels. -/
def gotos (targets : List Label) : List Landmark :=
  targets.map fun target => .goto (labelText target)

/-- A view of landmarks sees the first one and then the labels that the jumps behind it lead to. -/
theorem filterMap_cons_gotos {α : Type} (view : Landmark → Option α) (first : Landmark)
    (targets : List Label) :
    (first :: gotos targets).filterMap view =
      (view first).toList ++ targets.filterMap fun target => view (.goto (labelText target)) := by
  rw [gotos, List.filterMap_cons, List.filterMap_map]
  cases view first <;> rfl

/-- A jump shows the label it leads to. -/
theorem Jump.shows (choices : Nat) (jump : Jump) :
    Shows choices jump.tokens (gotos (Stmt.jump jump).target?.toList) := by
  cases jump with
  | goto target =>
    intro previous idle
    refine ⟨.mark ";", by decide, fun rest => ?_⟩
    simp [Jump.tokens, Stmt.target?, gotos, landmarksFrom, Landmark.at?, Landmark.choicesAfter,
      idle.2]
  | dispatch target =>
    have opening : Shows choices [.word "DISPATCH", .mark "("] [] := shows_of_inert (by decide)
    have closing : Shows choices [.mark ")"] [] := shows_of_inert (by decide)
    exact opening.append ((target.shows choices).append closing)

/-- A statement shows the label it jumps to. -/
theorem Stmt.shows (choices : Nat) (stmt : Stmt) :
    Shows choices stmt.tokens (gotos stmt.target?.toList) := by
  have semicolon : Shows choices [.mark ";"] [] := shows_of_inert (by decide)
  cases stmt with
  | declare temp value =>
    have opening : Shows choices [.word "uint32_t", .word temp.name, .mark "="] [] :=
      shows_of_inert (by cases temp <;> decide)
    exact opening.append ((value.shows choices).append semicolon)
  | assign rd value =>
    have equals : Shows choices [.mark "="] [] := shows_of_inert (by decide)
    exact ((Expr.register rd).shows choices).append
      (equals.append ((value.shows choices).append semicolon))
  | jump target => exact target.shows choices
  | jumpIf condition target =>
    have opening : Shows choices [.word "if", .mark "("] [] := shows_of_inert (by decide)
    have closing : Shows choices [.mark ")"] [] := shows_of_inert (by decide)
    rw [target?_jumpIf]
    exact opening.append ((condition.shows choices).append (closing.append (target.shows choices)))
  | returnIfHalt address value =>
    have opening : Shows choices [.word "if", .mark "(", .word "is_halt", .mark "("] [] :=
      shows_of_inert (by decide)
    have returning : Shows choices [.mark ")", .mark ")", .mark "\x7b", .word "return", .mark "(",
        .word "int", .mark ")"] [] := shows_of_inert (by decide)
    have closing : Shows choices [.mark ";", .mark "\x7d"] [] := shows_of_inert (by decide)
    exact opening.append ((address.shows choices).append
      (returning.append ((value.shows choices).append closing)))
  | store width offset value =>
    have opening : Shows choices [.word (storeName width), .mark "("] [] :=
      shows_of_inert (by cases width <;> decide)
    have comma : Shows choices [.mark ","] [] := shows_of_inert (by decide)
    have closing : Shows choices [.mark ")", .mark ";"] [] := shows_of_inert (by decide)
    exact opening.append ((offset.shows choices).append
      (comma.append ((value.shows choices).append closing)))

/-- A case of the dispatch switch shows its value and its jump. -/
theorem shows_entryTokens (entry : Constant × Label) :
    Shows 0 (entryTokens entry) (.entry entry.1 :: gotos [entry.2]) := by
  intro previous idle
  refine ⟨.mark ";", by decide, fun rest => ?_⟩
  simp [entryTokens, gotos, landmarksFrom, Landmark.at?, Landmark.choicesAfter, idle.2]

/-- A block shows its label and the jumps of its statements. -/
theorem LabelledBlock.shows (block : LabelledBlock) :
    Shows 0 block.tokens
      (.label (labelText block.label) :: gotos (block.body.filterMap Stmt.target?)) := by
  have heading : Shows 0 [.word (labelText block.label), .mark ":", .mark "\x7b"]
      [.label (labelText block.label)] := by
    intro previous idle
    refine ⟨.mark "\x7b", by decide, fun rest => ?_⟩
    have named : labelText block.label ≠ "default" := by
      intro same
      have first := congrArg (fun text => text.toList.head?) same
      simp [labelText] at first
    simp [landmarksFrom, Landmark.at?, Landmark.choicesAfter, idle.2, named]
  have body : Shows 0 (block.body.flatMap Stmt.tokens)
      (gotos (block.body.filterMap Stmt.target?)) := by
    rw [gotos, List.filterMap_eq_flatMap_toList, List.map_flatMap]
    exact Shows.flatMap fun stmt _ => stmt.shows 0
  have closing : Shows 0 [.mark "\x7d"] [] := shows_of_inert (by decide)
  have whole := heading.append (body.append closing)
  rwa [List.append_nil] at whole

end Parts

namespace Code

variable (code : Code)

/-- The landmarks of the dispatch switch. -/
def caseLandmarks : List Landmark :=
  code.cases.flatMap fun entry => .entry entry.1 :: gotos [entry.2]

/-- The landmarks of the blocks. -/
def blockLandmarks : List Landmark :=
  code.blocks.flatMap fun block =>
    .label (labelText block.label) :: gotos (block.body.filterMap Stmt.target?)

/-- The landmarks of a source file are those of the dispatch switch and then those of the blocks. -/
theorem landmarks_tokens :
    Target.landmarks code.tokens = code.caseLandmarks ++ code.blockLandmarks := by
  have first : Shows 0 opening [] := shows_of_inert (by decide)
  have second : Shows 0 (.mark ";" :: (entrance ++ switchStart)) [] := shows_of_inert (by decide)
  have third : Shows 0 switchEnd [] := by
    intro previous idle
    refine ⟨.lineEnd, by decide, fun rest => ?_⟩
    simp [switchEnd, landmarksFrom, Landmark.at?, Landmark.choicesAfter, idle.2]
  have fourth : Shows 0 [.word "return"] [] := shows_of_inert (by decide)
  have last : Shows 0 (.mark ";" :: ending) [] := shows_of_inert (by decide)
  have cases : Shows 0 (code.cases.flatMap entryTokens) code.caseLandmarks :=
    Shows.flatMap fun entry _ => shows_entryTokens entry
  have blocks : Shows 0 (code.blocks.flatMap LabelledBlock.tokens) code.blockLandmarks :=
    Shows.flatMap fun block _ => block.shows
  have whole := first.append ((code.haltTest.shows 0).append (second.append (cases.append
    (third.append (blocks.append (fourth.append ((code.result.shows 0).append last)))))))
  obtain ⟨final, -, shown⟩ := whole .lineEnd (by decide)
  simpa [tokens, landmarks, landmarksFrom] using shown []

/-- The cases of the dispatch switch stand in its definition. -/
theorem exists_tokens_eq_switch :
    ∃ front behind, code.tokens = front ++ (switchStart ++ (code.cases.flatMap entryTokens ++
      (switchEnd ++ behind))) := by
  refine ⟨opening ++ (code.haltTest.tokens ++ .mark ";" :: entrance),
    code.blocks.flatMap LabelledBlock.tokens ++ .word "return" :: (code.result.tokens ++
      .mark ";" :: ending), ?_⟩
  simp only [tokens, List.append_assoc, List.cons_append]

section Views

variable {α : Type} (view : Landmark → Option α)

/-- What a view of landmarks sees in the dispatch switch. -/
theorem filterMap_caseLandmarks :
    code.caseLandmarks.filterMap view = code.cases.flatMap fun entry =>
      (view (.entry entry.1)).toList ++
        [entry.2].filterMap fun target => view (.goto (labelText target)) := by
  simp only [caseLandmarks, List.filterMap_flatMap, filterMap_cons_gotos]

/-- What a view of landmarks sees in the blocks. -/
theorem filterMap_blockLandmarks :
    code.blockLandmarks.filterMap view = code.blocks.flatMap fun block =>
      (view (.label (labelText block.label))).toList ++
        (block.body.filterMap Stmt.target?).filterMap fun target =>
          view (.goto (labelText target)) := by
  simp only [blockLandmarks, List.filterMap_flatMap, filterMap_cons_gotos]

end Views

/-- There are no cases in the blocks. -/
theorem filterMap_constant?_blockLandmarks :
    code.blockLandmarks.filterMap Landmark.constant? = [] := by
  rw [filterMap_blockLandmarks]
  simp [Landmark.constant?]

/-- The labels in the text are those of the blocks. -/
theorem labelsIn_tokens : labelsIn code.tokens = code.labels.map labelText := by
  rw [labelsIn, landmarks_tokens, List.filterMap_append, filterMap_caseLandmarks,
    filterMap_blockLandmarks, labels, List.map_map, List.map_eq_flatMap]
  simp [Landmark.label?]

/-- The cases in the text are those of the dispatch switch. -/
theorem casesIn_tokens : casesIn code.tokens = code.cases.map fun entry => entry.1 := by
  rw [casesIn, landmarks_tokens, List.filterMap_append, filterMap_caseLandmarks,
    filterMap_constant?_blockLandmarks, List.append_nil, List.map_eq_flatMap]
  simp [Landmark.constant?]

/-- The jumps in the text are those of the dispatch switch and of the blocks. -/
theorem jumpsIn_tokens : jumpsIn code.tokens = code.targets.map labelText := by
  rw [jumpsIn, landmarks_tokens, List.filterMap_append, filterMap_caseLandmarks,
    filterMap_blockLandmarks, targets, List.map_append, List.map_map, List.map_flatMap,
    List.map_eq_flatMap]
  simp [Landmark.goto?]

end Code

/-- Constants tell words apart. -/
theorem Constant.ofWord_injective : Constant.ofWord.Injective := by
  intro first second same
  exact BitVec.eq_of_toNat_eq (Constant.mk.inj same).1

/-- Names tell labels apart. -/
theorem labelText_injective : labelText.Injective := by
  intro first second same
  have found := labelOfName?_labelText first
  rw [same, labelOfName?_labelText] at found
  exact (Option.some.inj found).symm

end RvLift.Target

namespace RvLift.Image

open Target

/-- The labels of the source text of an image are the addresses of its words, in order, and no
others. Every label that a jump anywhere in the text names is one of them. The cases of the dispatch
switch are the addresses of the labels, in order, each with a jump to its label, and no label stands
in front of them. Labels and cases are each unambiguous exactly if there are at most 2^30 words. -/
theorem source_labels_closed (image : Image) (settings : Settings) (annotate : Bool) :
    let name (index : Nat) := labelText ⟨Word.address image.base index⟩
    let constant (index : Nat) := Constant.ofWord (Word.address image.base index)
    let caseTokens (index : Nat) : List Token := [.word "case", .constant (constant index),
      .mark ":", .word "goto", .word (name index), .mark ";"]
    let caseLandmarks (index : Nat) : List Landmark :=
      [.entry (constant index), .goto (name index)]
    ∃ tokens front behind inner,
      tokens? (.fresh []) ((image.lift settings).source annotate) = some tokens ∧
      tokens = front ++ (Code.switchStart ++ ((List.range image.wordCount).flatMap caseTokens ++
        (Code.switchEnd ++ behind))) ∧
      landmarks tokens = (List.range image.wordCount).flatMap caseLandmarks ++ inner ∧
      inner.filterMap Landmark.constant? = [] ∧
      labelsIn tokens = (List.range image.wordCount).map name ∧
      jumpsIn tokens ⊆ labelsIn tokens ∧
      ((labelsIn tokens).Nodup ↔ image.wordCount ≤ 2 ^ 30) ∧
      ((casesIn tokens).Nodup ↔ image.wordCount ≤ 2 ^ 30) := by
  intro name constant caseTokens caseLandmarks
  have cases := image.cases_lift settings
  have labels : labelsIn (image.lift settings).code.tokens =
      (List.range image.wordCount).map name := by
    rw [Code.labelsIn_tokens, labels_lift, List.map_map]
    rfl
  obtain ⟨front, behind, switch⟩ := (image.lift settings).code.exists_tokens_eq_switch
  rw [cases, List.flatMap_map] at switch
  refine ⟨(image.lift settings).code.tokens, front, behind,
    (image.lift settings).code.blockLandmarks, Program.tokens?_source _ annotate, switch, ?_,
    Code.filterMap_constant?_blockLandmarks _, labels, ?_, ?_, ?_⟩
  · rw [Code.landmarks_tokens, Code.caseLandmarks, cases, List.flatMap_map]
    rfl
  · rw [Code.jumpsIn_tokens, Code.labelsIn_tokens]
    intro target member
    obtain ⟨label, jumps, rfl⟩ := List.mem_map.1 member
    exact List.mem_map_of_mem (image.mem_labels_of_mem_targets settings jumps)
  · rw [labels]
    exact Word.nodup_map_address_iff (labelText_injective.comp fun _ _ => Label.mk.inj) ..
  · rw [Code.casesIn_tokens, cases, List.map_map]
    exact Word.nodup_map_address_iff Constant.ofWord_injective ..

end RvLift.Image
