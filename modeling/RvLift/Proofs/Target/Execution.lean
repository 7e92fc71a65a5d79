import Mathlib
import RvLift.Proofs.Target.Code
import RvLift.Proofs.Target.Meaning

/-!
# Executing source files

What is read of a source file, executed by the rules of C. Declarations last to the end of their
block, assignments take effect at once, and control goes from each block to the one behind it unless
a jump leads elsewhere. Execution is undefined where an expression or a write of guest memory is,
where a temporary is declared twice in a block, and where a jump leads to a label that no block has.

The dispatch switch leads to the label of the case with the value, and on to the next statement if
there is none.
-/

namespace RvLift.Target

/-- The temporaries that a block has declared, with their values. -/
abbrev Locals := Temp → Option Word

/-- The temporaries at the start of a block. -/
def Locals.initial : Locals := fun _ => none

/-- The temporaries behind a declaration. -/
def Locals.declare (locals : Locals) (temp : Temp) (value : Word) : Locals :=
  fun other => if other = temp then some value else locals other

/-- The value of an expression converted to an unsigned word. -/
def Expr.word? (env : Env) (expr : Expr) : Option Word :=
  (expr.eval env).map fun value => BitVec.ofInt 32 value.value

/-- Where control goes behind a statement. -/
inductive Flow where
  /-- To the next statement. -/
  | onward (locals : Locals) (machine : Machine)
  /-- To a label. -/
  | goto (target : Label) (machine : Machine)
  /-- Out of the function, with a value of type `int`. -/
  | returned (value : Int) (machine : Machine)

/-- How far execution has come. -/
inductive Outcome where
  /-- A block is to be entered. -/
  | running (next : Label) (machine : Machine)
  /-- The function has returned a value of type `int`. -/
  | returned (value : Int) (machine : Machine)

/-- Assign to an element of the register file. -/
def assignRegister (machine : Machine) (rd : Reg) (value : Word) : Machine :=
  { machine with registers := machine.registers.set rd.index value rd.index_lt }

namespace Code

variable (code : Code) (accessors : Accessors)

/-- The label of the case that a value of the dispatch switch selects. The values of the cases are
converted to the type of the switch. -/
def select? (value : Value) : Option Label :=
  let type := value.type.promoted
  (code.cases.find? fun entry => type.convert entry.1.value = (value.convert type).value).map
    fun entry => entry.2

/-- The label that a jump leads to, if it leads anywhere. -/
def jump? (env : Env) : Jump → Option (Option Label)
  | .goto target => some (some target)
  | .dispatch target => (target.eval env).map code.select?

/-- Whether the halt test holds of an address. -/
def halts? (address : Word) : Option Bool :=
  let env : Env := ⟨Locals.initial.declare .addr address, fun _ => none, fun _ _ => none⟩
  (code.haltTest.eval env).map fun value => value.value ≠ 0

/-- Go where a jump leads. -/
def follow (locals : Locals) (machine : Machine) (target : Jump) : Option Flow :=
  (code.jump? (.ofMachine accessors machine locals) target).map fun label? =>
    match label? with
    | some label => .goto label machine
    | none => .onward locals machine

/-- Execute a statement. -/
def execute (locals : Locals) (machine : Machine) : Stmt → Option Flow
  | .declare temp value => do
    let word ← value.word? (.ofMachine accessors machine locals)
    if (locals temp).isSome then none
    else return .onward (locals.declare temp word) machine
  | .assign rd value => do
    let word ← value.word? (.ofMachine accessors machine locals)
    return .onward locals (assignRegister machine rd word)
  | .jump target => code.follow accessors locals machine target
  | .jumpIf condition target => do
    let test ← condition.eval (.ofMachine accessors machine locals)
    if test.value = 0 then return .onward locals machine
    else code.follow accessors locals machine target
  | .returnIfHalt address value => do
    let word ← address.word? (.ofMachine accessors machine locals)
    if ← code.halts? word then
      let result ← value.eval (.ofMachine accessors machine locals)
      return .returned (IntType.int32.convert result.value) machine
    else return .onward locals machine
  | .store width offset value => do
    let start ← offset.word? (.ofMachine accessors machine locals)
    let word ← value.word? (.ofMachine accessors machine locals)
    let memory ← accessors.store width machine.memory start word
    return .onward locals { machine with memory }

/-- Execute statements until control leaves them. -/
def executeAll (locals : Locals) (machine : Machine) : List Stmt → Option Flow
  | [] => some (.onward locals machine)
  | stmt :: rest => do
    match ← code.execute accessors locals machine stmt with
    | .onward locals machine => executeAll locals machine rest
    | flow => return flow

/-- The position of the block with a label. -/
def position? (label : Label) : Option Nat :=
  code.blocks.findIdx? fun block => block.label = label

/-- Return behind the last block. -/
def finish (machine : Machine) : Option Outcome := do
  let result ← code.result.eval (.ofMachine accessors machine Locals.initial)
  return .returned (IntType.int32.convert result.value) machine

/-- Execute from the block at a position on, entering at most as many blocks as given. -/
def executeFrom : Nat → Nat → Machine → Option Outcome
  | 0, index, machine =>
    match code.blocks[index]? with
    | none => code.finish accessors machine
    | some block => some (.running block.label machine)
  | count + 1, index, machine =>
    match code.blocks[index]? with
    | none => code.finish accessors machine
    | some block => do
      match ← code.executeAll accessors .initial machine block.body with
      | .onward _ machine => executeFrom count (index + 1) machine
      | .goto target machine => executeFrom count (← code.position? target) machine
      | .returned value machine => return .returned value machine

/-- Execute the function from its first block, entering at most `count` blocks. -/
def run (count : Nat) (machine : Machine) : Option Outcome :=
  code.executeFrom accessors count 0 machine

end Code

end RvLift.Target
