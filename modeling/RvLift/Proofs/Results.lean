/-!
# Results

Evaluations that may fail, one after another. A sequence goes on after a success and ends with a
failure, so that a sequence that succeeds has succeeded in all its parts.
-/

namespace RvLift

variable {ε α β : Type}

/-- Going on after success. -/
@[simp] theorem ok_bind (value : α) (next : α → Except ε β) :
    (Except.ok value >>= next) = next value := rfl

/-- A failure is not followed by anything. -/
@[simp] theorem error_bind (error : ε) (next : α → Except ε β) :
    (Except.error error >>= next) = .error error := rfl

/-- A value that is returned is a success. -/
@[simp] theorem pure_eq_ok (value : α) : (pure value : Except ε α) = .ok value := rfl

/-- A successful sequence of two evaluations has a first value. -/
theorem exists_ok_of_bind_eq_ok {first : Except ε α} {next : α → Except ε β} {value : β}
    (succeeded : (first >>= next) = .ok value) :
    ∃ middle, first = .ok middle ∧ next middle = .ok value := by
  cases first with
  | error error => contradiction
  | ok middle => exact ⟨middle, rfl, succeeded⟩

/-- A sequence of two evaluations fails in the first, or in the second after a success. -/
theorem bind_eq_error_iff {first : Except ε α} {next : α → Except ε β} {error : ε} :
    (first >>= next) = .error error ↔
      first = .error error ∨ ∃ value, first = .ok value ∧ next value = .error error := by
  cases first with
  | error other => simp
  | ok value => simp

/-- A fold fails at an item behind items that it has succeeded on. -/
theorem foldlM_eq_error_iff {step : α → β → Except ε α} {start : α} {items : List β}
    {error : ε} :
    items.foldlM step start = .error error ↔
      ∃ before item later middle, items = before ++ item :: later ∧
        before.foldlM step start = .ok middle ∧ step middle item = .error error := by
  induction items generalizing start with
  | nil => simp
  | cons first rest hypothesis =>
    rw [List.foldlM_cons, bind_eq_error_iff]
    constructor
    · rintro (fails | ⟨next, goesOn, fails⟩)
      · exact ⟨[], first, rest, start, rfl, rfl, fails⟩
      · obtain ⟨before, item, later, middle, rfl, earlier, fails⟩ := hypothesis.1 fails
        refine ⟨first :: before, item, later, middle, rfl, ?_, fails⟩
        rw [List.foldlM_cons, goesOn, ok_bind, earlier]
    · rintro ⟨before, item, later, middle, split, earlier, fails⟩
      cases before with
      | nil =>
        cases split
        cases earlier
        exact .inl fails
      | cons other before =>
        cases split
        obtain ⟨next, goesOn, earlier⟩ := exists_ok_of_bind_eq_ok earlier
        exact .inr ⟨next, goesOn, hypothesis.2 ⟨before, item, later, middle, rfl, earlier, fails⟩⟩

end RvLift
