import RvLift.Machine.Run

/-!
# Traces

The machines along a run, one for each block entered. The machine at position `n` of a trace is the
one that a run limited to `n` blocks leaves behind.
-/

namespace RvLift

/-- A machine along a run, and the result if the run ended there. -/
structure Snapshot where
  /-- The machine. -/
  machine : Machine
  /-- The result of the run, unless more blocks are to be entered. -/
  result? : Option RunResult

namespace Program

/-- The snapshots from a state on, entering at most `remaining` blocks. -/
def traceFrom (program : Program) : Nat → State → List Snapshot
  | remaining, ⟨index, machine⟩ =>
    match program.blocks[index]? with
    | none => [⟨machine, some (.ok .fellThrough)⟩]
    | some block =>
      match remaining with
      | 0 => [⟨machine, none⟩]
      | remaining + 1 =>
        ⟨machine, none⟩ ::
          match program.step block index machine with
          | .next state => program.traceFrom remaining state
          | .halted value machine => [⟨machine, some (.ok (.returned value))⟩]
          | .faulted fault machine => [⟨machine, some (.error (.memoryFault fault))⟩]

/-- The machine at the start of a run and after each block it enters, `limit` blocks at most. -/
def trace (program : Program) (limit : Nat) (machine : Machine) : List Snapshot :=
  program.traceFrom limit (.start machine)

end Program

end RvLift
