import Mathlib
import RvLift.Machine.Run

/-!
# How runs end

A run enters one block after another until there is no block, until the allowed number of blocks has
been entered, or until a block halts the program or makes an access outside memory. Everything else
about runs can be told from the states on the way.
-/

namespace RvLift.Program

variable (program : Program)

/-- The state after entering a number of blocks, if the run goes on that far. -/
def after : Nat → State → Option State
  | 0, state => some state
  | count + 1, state =>
    match program.blocks[state.index]? with
    | none => none
    | some block =>
      match program.step block state.index state.machine with
      | .next next => after count next
      | .halted .. | .faulted .. => none

/-- How a run ends that may enter `remaining` more blocks of the `limit` allowed. -/
inductive Ending (limit remaining : Nat) (state : State) : RunResult × Machine → Prop where
  /-- Control has passed the last block. -/
  | fellThrough {count : Nat} {last : State} (reached : program.after count state = some last)
    (within : count ≤ remaining) (past : program.blocks[last.index]? = none) :
    Ending limit remaining state (.ok .fellThrough, last.machine)
  /-- All blocks allowed have been entered, and there is one more to enter. -/
  | stopped {last : State} {block : Block} (reached : program.after remaining state = some last)
    (present : program.blocks[last.index]? = some block) :
    Ending limit remaining state (.error (.stepLimit limit), last.machine)
  /-- A block has halted the program. -/
  | halted {count : Nat} {last : State} {block : Block} {value : Word} {final : Machine}
    (reached : program.after count state = some last) (within : count < remaining)
    (present : program.blocks[last.index]? = some block)
    (stepped : program.step block last.index last.machine = .halted value final) :
    Ending limit remaining state (.ok (.returned value), final)
  /-- A block has made an access outside memory. -/
  | faulted {count : Nat} {last : State} {block : Block} {fault : Fault} {final : Machine}
    (reached : program.after count state = some last) (within : count < remaining)
    (present : program.blocks[last.index]? = some block)
    (stepped : program.step block last.index last.machine = .faulted fault final) :
    Ending limit remaining state (.error (.memoryFault fault), final)

section Endings

variable {program} {limit remaining : Nat} {state next : State} {block : Block}

/-- Entering a block that goes on. -/
theorem after_succ (present : program.blocks[state.index]? = some block)
    (stepped : program.step block state.index state.machine = .next next) (count : Nat) :
    program.after (count + 1) state = program.after count next := by
  simp only [after, present, stepped]

/-- A run that goes on for one more block enters a block that goes on. -/
theorem exists_step_of_after {count : Nat} {last : State}
    (reached : program.after (count + 1) state = some last) :
    ∃ block next, program.blocks[state.index]? = some block ∧
      program.step block state.index state.machine = .next next ∧
      program.after count next = some last := by
  rw [after] at reached
  cases present : program.blocks[state.index]? with
  | none => simp [present] at reached
  | some block =>
    simp only [present] at reached
    cases stepped : program.step block state.index state.machine with
    | next next =>
      simp only [stepped] at reached
      exact ⟨block, next, rfl, stepped, reached⟩
    | halted value final => simp [stepped] at reached
    | faulted fault final => simp [stepped] at reached

/-- How a run ends is how it ends after its first block. -/
theorem Ending.enter {ended : RunResult × Machine}
    (present : program.blocks[state.index]? = some block)
    (stepped : program.step block state.index state.machine = .next next)
    (ending : program.Ending limit remaining next ended) :
    program.Ending limit (remaining + 1) state ended := by
  have first := after_succ present stepped
  cases ending with
  | fellThrough reached within past =>
    exact .fellThrough ((first _).trans reached) (by omega) past
  | stopped reached present => exact .stopped ((first _).trans reached) present
  | halted reached within present stepped =>
    exact .halted ((first _).trans reached) (by omega) present stepped
  | faulted reached within present stepped =>
    exact .faulted ((first _).trans reached) (by omega) present stepped

variable (program limit remaining state) in
/-- Every run ends in one of these ways. -/
theorem ending_runFrom :
    program.Ending limit remaining state (program.runFrom limit remaining state) := by
  induction remaining generalizing state with
  | zero =>
    obtain ⟨index, machine⟩ := state
    have here : program.after 0 ⟨index, machine⟩ = some ⟨index, machine⟩ := rfl
    cases present : program.blocks[index]? with
    | none =>
      simp only [runFrom, present]
      exact .fellThrough here (Nat.le_refl 0) present
    | some block =>
      simp only [runFrom, present]
      exact .stopped here present
  | succ remaining hypothesis =>
    obtain ⟨index, machine⟩ := state
    have here : program.after 0 ⟨index, machine⟩ = some ⟨index, machine⟩ := rfl
    cases present : program.blocks[index]? with
    | none =>
      simp only [runFrom, present]
      exact .fellThrough here (Nat.zero_le _) present
    | some block =>
      cases stepped : program.step block index machine with
      | next next =>
        simp only [runFrom, present, stepped]
        exact (hypothesis next).enter present stepped
      | halted value final =>
        simp only [runFrom, present, stepped]
        exact .halted here (Nat.zero_lt_succ _) present stepped
      | faulted fault final =>
        simp only [runFrom, present, stepped]
        exact .faulted here (Nat.zero_lt_succ _) present stepped

/-- A run goes on from every state it reaches. -/
theorem runFrom_after {count : Nat} {last : State}
    (reached : program.after count state = some last) (extra : Nat) :
    program.runFrom limit (count + extra) state = program.runFrom limit extra last := by
  induction count generalizing state with
  | zero =>
    cases reached
    rw [Nat.zero_add]
  | succ count hypothesis =>
    obtain ⟨block, next, present, stepped, later⟩ := exists_step_of_after reached
    rw [← hypothesis later, Nat.add_right_comm, runFrom]
    simp only [present, stepped]

/-- A run ends in one way only. -/
theorem Ending.runFrom_eq {ended : RunResult × Machine}
    (ending : program.Ending limit remaining state ended) :
    program.runFrom limit remaining state = ended := by
  cases ending with
  | fellThrough reached within past =>
    obtain ⟨extra, rfl⟩ := Nat.exists_eq_add_of_le within
    rw [runFrom_after reached, runFrom]
    simp only [past]
  | @stopped last block reached present =>
    have stops : program.runFrom limit remaining state = program.runFrom limit 0 last :=
      runFrom_after reached 0
    rw [stops, runFrom]
    simp only [present]
  | halted reached within present stepped =>
    obtain ⟨extra, rfl⟩ := Nat.exists_eq_add_of_lt within
    rw [Nat.add_assoc, runFrom_after reached, runFrom]
    simp only [present, stepped]
  | faulted reached within present stepped =>
    obtain ⟨extra, rfl⟩ := Nat.exists_eq_add_of_lt within
    rw [Nat.add_assoc, runFrom_after reached, runFrom]
    simp only [present, stepped]

/-- What a run comes to is how it ends. -/
theorem run_eq_iff_ending {machine : Machine} {ended : RunResult × Machine} :
    program.run limit machine = ended ↔ program.Ending limit limit (.start machine) ended := by
  constructor
  · rintro rfl
    exact program.ending_runFrom limit limit (.start machine)
  · exact Ending.runFrom_eq

section Runs

variable {count : Nat} {machine : Machine} {last : State}
  (reached : program.after count (.start machine) = some last)
  (present : program.blocks[last.index]? = some block)
include reached present

/-- A run that may enter just the blocks before another one stops in front of it. -/
theorem run_eq_stepLimit :
    program.run count machine = (.error (.stepLimit count), last.machine) :=
  run_eq_iff_ending.2 (.stopped reached present)

/-- A run that reaches a block with an access outside memory ends there. -/
theorem run_eq_memoryFault {fault : Fault} {final : Machine} (within : count < limit)
    (stepped : program.step block last.index last.machine = .faulted fault final) :
    program.run limit machine = (.error (.memoryFault fault), final) :=
  run_eq_iff_ending.2 (.faulted reached within present stepped)

end Runs

end Endings

end RvLift.Program
