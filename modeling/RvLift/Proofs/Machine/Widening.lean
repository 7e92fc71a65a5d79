import Mathlib
import RvLift.Proofs.Block.Effect
import RvLift.Proofs.Bytes
import RvLift.Proofs.Machine.Progress

/-!
# More memory

A program can tell how much memory it has by an access outside it only. Bytes behind the memory of a
machine are therefore never read or written by a run that makes no such access, and the run comes to
the same with them. A run that does make one goes the same way up to the block that makes it.
-/

namespace RvLift

namespace Machine

/-- The machine with more bytes behind its memory. -/
def widen (extra : ByteArray) (machine : Machine) : Machine :=
  { machine with memory := machine.memory ++ extra }

/-- Whether a machine is another one with more bytes behind its memory. -/
structure Widens (extra : ByteArray) (wider machine : Machine) : Prop where
  /-- The registers are the same. -/
  registers : wider.registers = machine.registers
  /-- The memory goes on with the bytes. -/
  memory : wider.memory = machine.memory ++ extra

/-- One machine is another with more bytes if it is what adding them gives. -/
theorem widens_iff {extra : ByteArray} {wider machine : Machine} :
    Widens extra wider machine ↔ wider = machine.widen extra := by
  constructor
  · rintro ⟨registers, memory⟩
    obtain ⟨widerRegisters, widerMemory⟩ := wider
    cases registers
    cases memory
    rfl
  · rintro rfl
    exact ⟨rfl, rfl⟩

/-- A larger memory around an image is a smaller one with more bytes. -/
theorem exists_widens_ofImageSized (image : Image) {smaller larger : Nat}
    (ordered : smaller ≤ larger) :
    ∃ extra, Widens extra (ofImageSized image larger) (ofImageSized image smaller) := by
  let count := max image.bytes.size larger - max image.bytes.size smaller
  refine ⟨Bytes.tabulate count fun _ => 0, rfl, ?_⟩
  change Bytes.padTo image.bytes larger = Bytes.padTo image.bytes smaller ++ _
  apply Bytes.eq_of_byteAt
  · rw [ByteArray.size_append, Bytes.size_padTo, Bytes.size_padTo, Bytes.size_tabulate]
    omega
  · intro position
    rw [Bytes.byteAt_append, Bytes.byteAt_padTo, Bytes.byteAt_padTo, Bytes.size_padTo,
      Bytes.byteAt_tabulate]
    by_cases inside : position < max image.bytes.size smaller
    · rw [if_pos inside]
    · rw [if_neg inside, Bytes.byteAt_of_size_le (by omega)]
      exact (ite_self 0).symm

section Accesses

variable {extra : ByteArray} {machine stored : Machine} {access : Access} {value : Word}

variable (extra machine) in
/-- Registers are written as before. -/
theorem writeBack_widen (writeback : Option (Reg × Word)) :
    (machine.widen extra).writeBack writeback = (machine.writeBack writeback).widen extra := by
  cases writeback with
  | none => rfl
  | some write =>
    simp only [writeBack, setReg]
    split <;> rfl

/-- An access inside memory stays inside. -/
theorem covers_widen (covered : machine.covers access = true) :
    (machine.widen extra).covers access = true := by
  have inside : access.offset.toNat + access.width.bytes ≤ machine.memory.size :=
    of_decide_eq_true covered
  refine decide_eq_true ?_
  change _ ≤ (machine.memory ++ extra).size
  rw [ByteArray.size_append]
  omega

/-- What was written is written again, and the bytes behind it stay as they are. -/
theorem store?_widen (written : machine.store? access value = some stored) :
    (machine.widen extra).store? access value = some (stored.widen extra) := by
  unfold store? at written ⊢
  split at written
  · rename_i covered
    cases written
    rw [if_pos (covers_widen covered)]
    change some { machine with
      memory := Bytes.writeLittle (machine.memory ++ extra) _ _ value.toNat } = _
    rw [Bytes.writeLittle_append (of_decide_eq_true covered)]
    rfl
  · contradiction

end Accesses

end Machine

section Evaluation

/-- Whether an evaluation succeeds with every value that another one succeeds with. -/
def Retains {α : Type} (first second : Except Access α) : Prop :=
  ∀ value, first = .ok value → second = .ok value

/-- An evaluation succeeds with its own value. -/
theorem Retains.refl {α : Type} (evaluation : Except Access α) : Retains evaluation evaluation :=
  fun _ succeeded => succeeded

/-- Successes are retained by sequences whose parts retain them. -/
theorem Retains.bind {α β : Type} {first second : Except Access α}
    {next other : α → Except Access β} (start : Retains first second)
    (later : ∀ value, Retains (next value) (other value)) :
    Retains (first >>= next) (second >>= other) := by
  intro result succeeded
  obtain ⟨middle, reached, rest⟩ := exists_ok_of_bind_eq_ok succeeded
  rw [start middle reached]
  exact later middle result rest

variable (extra : ByteArray) (machine : Machine)

/-- What was read is read again. -/
theorem Machine.retains_load (access : Access) :
    Retains (machine.load access) ((machine.widen extra).load access) := by
  intro value loaded
  by_cases covered : machine.covers access = true
  · rw [load_of_covers covered] at loaded
    rw [load_of_covers (covers_widen covered), ← loaded]
    change Except.ok (BitVec.ofNat 32 (Bytes.readLittle (machine.memory ++ extra) _ _)) = _
    rw [Bytes.readLittle_append (of_decide_eq_true covered)]
  · rw [load, if_neg covered] at loaded
    contradiction

/-- An expression with a value has the same value. -/
theorem Expr.retains_eval (temps : Temps) (expr : Expr) :
    Retains (expr.eval machine temps) (expr.eval (machine.widen extra) temps) := by
  induction expr with
  | imm value => exact .refl _
  | reg source => exact .refl _
  | temp source => exact .refl _
  | alu op left right leftHypothesis rightHypothesis =>
    exact leftHypothesis.bind fun _ => rightHypothesis.bind fun _ => .refl _
  | mulDiv op left right leftHypothesis rightHypothesis =>
    exact leftHypothesis.bind fun _ => rightHypothesis.bind fun _ => .refl _
  | load width signed offset hypothesis =>
    exact hypothesis.bind fun start =>
      (machine.retains_load extra ⟨start, width⟩).bind fun _ => .refl _

/-- A statement works out the same. -/
theorem Stmt.retains_eval (frame : Frame) (stmt : Stmt) :
    Retains (stmt.eval machine frame) (stmt.eval (machine.widen extra) frame) := by
  cases stmt with
  | define temp value => exact (value.retains_eval extra machine frame.temps).bind fun _ => .refl _
  | write rd value => exact (value.retains_eval extra machine frame.temps).bind fun _ => .refl _

/-- Statements work out the same, one after another. -/
theorem retains_foldlM_eval (frame : Frame) (stmts : List Stmt) :
    Retains (stmts.foldlM (Stmt.eval machine) frame)
      (stmts.foldlM (Stmt.eval (machine.widen extra)) frame) := by
  induction stmts generalizing frame with
  | nil => exact .refl _
  | cons stmt rest hypothesis =>
    rw [List.foldlM_cons, List.foldlM_cons]
    exact (stmt.retains_eval extra machine frame).bind hypothesis

/-- A terminator asks for the same. -/
theorem Terminator.retains_eval (haltAddress : Word) (temps : Temps) (terminator : Terminator) :
    Retains (terminator.eval machine haltAddress temps)
      (terminator.eval (machine.widen extra) haltAddress temps) := by
  have part (expr : Expr) := expr.retains_eval extra machine temps
  cases terminator with
  | «fallthrough» => exact .refl _
  | jump target => exact .refl _
  | branch cond left right target =>
    exact (part left).bind fun _ => (part right).bind fun _ => .refl _
  | dispatch target => exact (part target).bind fun _ => .refl _
  | haltOrStore width address offset value =>
    refine (part value).bind fun stored => (part address).bind fun place => ?_
    by_cases halts : place = haltAddress
    · rw [if_pos halts, if_pos halts]
      exact .refl _
    · rw [if_neg halts, if_neg halts]
      exact (part offset).bind fun _ => .refl _

/-- A block comes to the same. -/
theorem Block.retains_eval (haltAddress : Word) (block : Block) :
    Retains (block.eval machine haltAddress) (block.eval (machine.widen extra) haltAddress) :=
  (retains_foldlM_eval extra machine Frame.initial block.stmts).bind fun frame =>
    (block.terminator.retains_eval extra machine haltAddress frame.temps).bind fun _ => .refl _

end Evaluation

/-- The state with more bytes behind the memory of its machine. -/
def State.widen (extra : ByteArray) (state : State) : State :=
  ⟨state.index, state.machine.widen extra⟩

/-- What entering a block leads to, with more bytes behind the memory of the machine. -/
def Step.widen (extra : ByteArray) : Step → Step
  | .next state => .next (state.widen extra)
  | .halted value machine => .halted value (machine.widen extra)
  | .faulted fault machine => .faulted fault (machine.widen extra)

namespace Program

section Runs

variable {program : Program} {extra : ByteArray}

/-- Entering a block that makes no access outside memory leads to the same. -/
theorem step_widen {block : Block} {index : Nat} {machine : Machine} {result : Step}
    (stepped : program.step block index machine = result)
    (safe : ∀ fault final, result ≠ .faulted fault final) :
    program.step block index (machine.widen extra) = result.widen extra := by
  subst stepped
  unfold step at safe ⊢
  cases evaluated : block.eval machine program.haltAddress with
  | error access =>
    simp only [evaluated] at safe
    exact absurd rfl (safe _ _)
  | ok result =>
    obtain ⟨writeback, transfer⟩ := result
    simp only [evaluated] at safe
    simp only [block.retains_eval extra machine _ _ evaluated, Machine.writeBack_widen]
    cases transfer with
    | next => rfl
    | jump target => rfl
    | halt value => rfl
    | store access value =>
      cases written : (machine.writeBack writeback).store? access value with
      | none =>
        simp only [written] at safe
        exact absurd rfl (safe _ _)
      | some stored => simp only [Machine.store?_widen written, written, Step.widen, State.widen]

/-- The blocks entered lead to the same states. -/
theorem after_widen {count : Nat} {state last : State}
    (reached : program.after count state = some last) :
    program.after count (state.widen extra) = some (last.widen extra) := by
  induction count generalizing state with
  | zero =>
    cases reached
    rfl
  | succ count hypothesis =>
    obtain ⟨block, next, present, stepped, later⟩ := exists_step_of_after reached
    have here : program.blocks[(state.widen extra).index]? = some block := present
    rw [after_succ here (step_widen stepped nofun)]
    exact hypothesis later

/-- A run that makes no access outside memory ends in the same way. -/
theorem Ending.widen {limit remaining : Nat} {state : State} {ended : RunResult × Machine}
    (ending : program.Ending limit remaining state ended)
    (safe : ∀ fault, ended.1 ≠ .error (.memoryFault fault)) :
    program.Ending limit remaining (state.widen extra) (ended.1, ended.2.widen extra) := by
  cases ending with
  | fellThrough reached within past => exact .fellThrough (after_widen reached) within past
  | stopped reached present => exact .stopped (after_widen reached) present
  | halted reached within present stepped =>
    exact .halted (after_widen reached) within present (step_widen stepped nofun)
  | faulted reached within present stepped => exact absurd rfl (safe _)

end Runs

/-- More memory changes nothing for a run that makes no access outside memory. If a machine is
another one with more bytes behind its memory, the run on it has the same result, and it leaves the
machine that the other run leaves with those bytes, unchanged, behind its memory. If the other run
makes an access outside memory, the two go the same way up to the block that makes it. -/
theorem run_with_more_memory (program : Program) (machine wider : Machine) (extra : ByteArray)
    (widens : wider.Widens extra machine) (limit : Nat) :
    ((∀ fault, (program.run limit machine).1 ≠ .error (.memoryFault fault)) →
      (program.run limit wider).1 = (program.run limit machine).1 ∧
        (program.run limit wider).2.Widens extra (program.run limit machine).2) ∧
    ∀ fault final, program.run limit machine = (.error (.memoryFault fault), final) →
      ∃ count < limit, ∃ index reached reachedWider block,
        program.after count (.start machine) = some ⟨index, reached⟩ ∧
        program.blocks[index]? = some block ∧
        program.step block index reached = .faulted fault final ∧
        program.after count (.start wider) = some ⟨index, reachedWider⟩ ∧
        reachedWider.Widens extra reached := by
  obtain rfl := Machine.widens_iff.1 widens
  constructor
  · intro safe
    have ending := run_eq_iff_ending.1 (rfl : program.run limit machine = _)
    have same : program.run limit (machine.widen extra) =
        ((program.run limit machine).1, (program.run limit machine).2.widen extra) :=
      run_eq_iff_ending.2 (ending.widen safe)
    rw [same]
    exact ⟨rfl, rfl, rfl⟩
  · intro fault final ended
    cases run_eq_iff_ending.1 ended with
    | @faulted count last block _ _ reached within present stepped =>
      exact ⟨count, within, last.index, last.machine, last.machine.widen extra, block, reached,
        present, stepped, after_widen reached, rfl, rfl⟩

/-- `lw x1, 4(x0)` and `sw x1, 8(x0)`: the store touches the end of 12 bytes of memory, and the run
ends in the same way with 64 bytes. With 8 bytes the store is refused, after a block that goes the
same way. -/
theorem run_with_more_memory_last_bytes :
    let image : Image := ⟨0, ⟨#[0x83, 0x20, 0x40, 0x00, 0x23, 0x24, 0x10, 0x00]⟩⟩
    let program := image.lift { base := 0 }
    (program.run 9 (.ofImageSized image 12)).1 = .ok .fellThrough ∧
      (program.run 9 (.ofImageSized image 64)).1 = .ok .fellThrough ∧
      (program.run 9 (.ofImageSized image 8)).1 = .error (.memoryFault ⟨4, 8, .word⟩) ∧
      ∃ count < 9, ∃ index reached reachedWider extra,
        program.after count (.start (.ofImageSized image 8)) = some ⟨index, reached⟩ ∧
        program.after count (.start (.ofImageSized image 12)) = some ⟨index, reachedWider⟩ ∧
        reachedWider.Widens extra reached := by
  intro image program
  obtain ⟨more, widens⟩ := Machine.exists_widens_ofImageSized image (by decide : 12 ≤ 64)
  obtain ⟨extra, grows⟩ := Machine.exists_widens_ofImageSized image (by decide : 8 ≤ 12)
  have ends : (program.run 9 (.ofImageSized image 12)).1 = .ok .fellThrough := by decide +kernel
  have faults :
      (program.run 9 (.ofImageSized image 8)).1 = .error (.memoryFault ⟨4, 8, .word⟩) := by
    decide +kernel
  have safe (fault : Fault) :
      (program.run 9 (.ofImageSized image 12)).1 ≠ .error (.memoryFault fault) := by
    rw [ends]
    exact nofun
  have same := ((run_with_more_memory program _ _ more widens 9).1 safe).1
  obtain ⟨count, within, index, reached, reachedWider, -, arrives, -, -, arrivesWider, agrees⟩ :=
    (run_with_more_memory program _ _ extra grows 9).2 _ _ (Prod.ext faults rfl)
  exact ⟨ends, same.trans ends, faults, count, within, index, reached, reachedWider, extra, arrives,
    arrivesWider, agrees⟩

end Program

end RvLift
