import Mathlib
import RvLift.Proofs.Machine.Progress
import RvLift.Proofs.Target.Execution
import RvLift.Proofs.Target.Labels

/-!
# Source files and runs

The source text of a lifted image, read back and executed by the rules of C, runs as the program it
was emitted from does. One block is compared first: its temporaries are the locals of C, its
register write comes last and so may as well take effect at once, and its terminator finds the label
that the program would jump to, if there is one. Whole runs follow block by block.
-/

namespace RvLift

open Target

section Parts

variable (program : Program)

/-- The halt test compares with the halt address. -/
theorem Program.halts?_code (address : Word) :
    program.code.halts? address = some (decide (address = program.haltAddress)) := by
  let env : Env := ⟨Locals.initial.declare .addr address, fun _ => none, fun _ _ => none⟩
  have name : Means env (.temp .addr) (.ofWord address) := ⟨rfl, rfl⟩
  have constant := Means.unsigned env program.haltAddress .hexadecimal
  have test := (name.ofCond constant .eq).eval_eq
  have evaluated : program.code.haltTest.eval env =
      some (.ofBool (Cond.eq.holds address program.haltAddress)) := test
  have outcome : program.code.halts? address =
      (program.code.haltTest.eval env).map fun value => decide (value.value ≠ 0) := rfl
  rw [outcome, evaluated, Option.map_some]
  by_cases same : address = program.haltAddress
  · simp [Cond.holds, same, Value.ofBool]
  · simp [Cond.holds, same, Value.ofBool]

/-- The dispatch switch has the labels of the jump table. -/
theorem Program.select?_code (target : Word) :
    program.code.select? (.ofWord target) = program.table.lookup? target := by
  have matching (entry : Word × Label) :
      IntType.uint32.convert ((Constant.ofWord entry.1).value : Nat) =
        ((Value.ofWord target).convert .uint32).value ↔ entry.1 = target := by
    rw [Value.convert_ofWord]
    change IntType.uint32.convert entry.1.toNat = (target.toNat : Int) ↔ _
    rw [IntType.convert_of_fits (IntType.fits_uint32 entry.1), Int.ofNat_inj, BitVec.toNat_inj]
  have cases : program.code.select? (.ofWord target) =
      (program.table.entries.find? fun entry => decide (entry.1 = target)).map
        fun entry => entry.2 := by
    simp only [← matching]
    simp only [Code.select?, code, emit, SourceFile.code, List.find?_map, Option.map_map]
    rfl
  rw [cases]
  cases found : program.table.entries.find? fun entry => decide (entry.1 = target) with
  | none =>
    cases resolved : program.table.lookup? target with
    | none => rfl
    | some label =>
      have differs := List.find?_eq_none.1 found (target, label)
        (JumpTable.mem_entries_iff.2 resolved)
      exact absurd (decide_eq_true rfl) differs
  | some entry =>
    obtain rfl : entry.1 = target := by simpa using List.find?_some found
    exact (JumpTable.mem_entries_iff.1 (List.mem_of_find?_eq_some found)).symm

end Parts

section Blocks

variable {program : Program} {accessors : Accessors} {machine : Machine}

/-- Whether the locals of C are the temporaries declared so far. -/
structure Agrees (declared : List Temp) (temps : Temps) (locals : Locals) : Prop where
  /-- What has been declared has its value. -/
  present : ∀ temp ∈ declared, locals temp = some (temps temp)
  /-- Nothing else has been declared. -/
  absent : ∀ temp ∉ declared, locals temp = none

variable {declared : List Temp} {temps : Temps} {locals : Locals}

/-- A declaration adds to both. -/
theorem Agrees.declare (agrees : Agrees declared temps locals) (temp : Temp) (value : Word) :
    Agrees (temp :: declared) (temps.set temp value) (locals.declare temp value) := by
  constructor
  · intro other member
    by_cases same : other = temp
    · simp [Locals.declare, same]
    · have earlier := (List.mem_cons.1 member).resolve_left same
      simpa [Locals.declare, same] using agrees.present other earlier
  · intro other outside
    obtain ⟨differs, fresh⟩ := not_or.1 (List.mem_cons.not.1 outside)
    simpa [Locals.declare, differs] using agrees.absent other fresh

/-- An expression that means a word has this word. -/
theorem Target.Means.word? {env : Env} {expr : Target.Expr} {value : Word}
    (means : Means env expr (.ofWord value)) : expr.word? env = some value := by
  rw [Target.Expr.word?, means.eval_eq, Option.map_some, Value.ofWord, Word.ofInt_toNat]

section Expressions

variable {expr : Expr} {value : Word} (lawful : accessors.Lawful)
  (agrees : Agrees declared temps locals) (reads : expr.ReadsOnly declared)
  (evaluates : expr.eval machine temps = .ok value)

include lawful agrees reads evaluates

/-- An emitted expression has its value where what it reads has been declared. -/
theorem Agrees.means : Means (.ofMachine accessors machine locals) expr.emit (.ofWord value) :=
  Expr.means_emit lawful (fun source read => agrees.present source (reads source read)) evaluates

/-- An emitted expression has its value as a word. -/
theorem Agrees.word? : expr.emit.word? (.ofMachine accessors machine locals) = some value :=
  (agrees.means lawful reads evaluates).word?

end Expressions

/-- A register write that is not one of `x0` is an assignment. -/
theorem assignRegister_eq {rd : Reg} (written : rd ≠ Reg.zero) (value : Word) :
    assignRegister machine rd value = machine.setReg rd value := by
  rw [Machine.setReg, if_neg written]
  rfl

/-- Executing the statements of a block leaves its temporaries as locals and its register write
carried out, where the terminator finds all it reads. -/
theorem executeAll_stmts (lawful : accessors.Lawful) (code : Code) {terminator : Terminator}
    {stmts : List Stmt} {frame : Frame} (orderly : Orderly terminator declared stmts)
    (agrees : Agrees declared temps locals)
    (evaluates : stmts.foldlM (Stmt.eval machine) ⟨temps, none⟩ = .ok frame)
    (rest : List Target.Stmt) :
    ∃ declared locals', terminator.Settled declared ∧ Agrees declared frame.temps locals' ∧
      code.executeAll accessors locals machine (stmts.map Stmt.emit ++ rest) =
        code.executeAll accessors locals' (machine.writeBack frame.writeback) rest := by
  induction stmts generalizing declared temps locals with
  | nil =>
    cases evaluates
    exact ⟨declared, locals, orderly, agrees, rfl⟩
  | cons stmt stmts hypothesis =>
    rw [List.foldlM_cons] at evaluates
    obtain ⟨middle, first, later⟩ := exists_ok_of_bind_eq_ok evaluates
    cases stmt with
    | define temp value =>
      obtain ⟨fresh, reads, orderly⟩ := orderly
      obtain ⟨word, valued, stored⟩ := exists_ok_of_bind_eq_ok first
      cases stored
      obtain ⟨final, locals', settled, agreed, same⟩ :=
        hypothesis orderly (agrees.declare temp word) later
      refine ⟨final, locals', settled, agreed, Eq.trans ?_ same⟩
      have declared := agrees.word? lawful reads valued
      simp [Code.executeAll, Code.execute, Stmt.emit, declared, agrees.absent temp fresh]
    | write rd value =>
      cases stmts with
      | nil =>
        obtain ⟨written, reads, settled⟩ := orderly
        obtain ⟨word, valued, stored⟩ := exists_ok_of_bind_eq_ok first
        cases stored
        cases later
        refine ⟨declared, locals, settled, agrees, ?_⟩
        have assigned := agrees.word? lawful reads valued
        simp [Code.executeAll, Code.execute, Stmt.emit, assigned, assignRegister_eq written,
          Machine.writeBack]
      | cons next stmts => exact absurd orderly id

variable (program) in
/-- Where control goes in C for what a terminator asks for. -/
def Program.flow? (locals : Locals) (machine : Machine) : Transfer → Option Flow
  | .next => some (.onward locals machine)
  | .jump target =>
    some <| match program.table.lookup? target with
      | some label => .goto label machine
      | none => .onward locals machine
  | .halt value => some (.returned value.toInt machine)
  | .store access value => (machine.store? access value).map (.onward locals)

/-- A jump to a known address leads where the jump table says. -/
theorem follow_jumpTo (target : Label) :
    program.code.follow accessors locals machine (program.table.jumpTo target) =
      program.flow? locals machine (.jump target.address) := by
  have resolved : program.code.jump? (.ofMachine accessors machine locals)
      (program.table.jumpTo target) = some (program.table.lookup? target.address) := by
    cases found : program.table.lookup? target.address with
    | some label => simp [JumpTable.jumpTo, found, Code.jump?]
    | none =>
      have constant : (Target.Expr.ofWord target.address).eval
          (.ofMachine accessors machine locals) = some (.ofWord target.address) :=
        (Means.unsigned _ target.address .hexadecimal).eval_eq
      simp only [JumpTable.jumpTo, found, Code.jump?, constant, Option.map_some,
        program.select?_code]
  rw [Code.follow, resolved]
  rfl

/-- Executing one statement. -/
theorem executeAll_single (code : Code) (stmt : Target.Stmt) :
    code.executeAll accessors locals machine [stmt] =
      code.execute accessors locals machine stmt := by
  rw [Code.executeAll]
  cases code.execute accessors locals machine stmt with
  | none => rfl
  | some flow => cases flow <;> rfl

/-- What a terminator reads has the same value after the register write as before it. -/
theorem Terminator.Settled.means (lawful : accessors.Lawful) {terminator : Terminator}
    (settled : terminator.Settled declared) (agrees : Agrees declared temps locals) {expr : Expr}
    (member : expr ∈ terminator.exprs) {value : Word}
    (valued : expr.eval machine temps = .ok value) (written : Machine) :
    Means (.ofMachine accessors written locals) expr.emit (.ofWord value) := by
  obtain ⟨reads, detached⟩ := settled expr member
  rw [Expr.eval_of_detached detached machine written] at valued
  exact agrees.means lawful reads valued

section HaltOrStore

variable {width : Width} {address offset value : Expr} {place start stored : Word}
  (placeMeans : Means (.ofMachine accessors machine locals) address.emit (.ofWord place))
  (storedMeans : Means (.ofMachine accessors machine locals) value.emit (.ofWord stored))

include placeMeans storedMeans

/-- A store to the halt address returns the value. -/
theorem executeAll_halt (halts : place = program.haltAddress) :
    program.code.executeAll accessors locals machine
        ((Terminator.haltOrStore width address offset value).emit program.table) =
      some (.returned stored.toInt machine) := by
  have converted : IntType.int32.convert (Value.ofWord stored).value = stored.toInt := by
    rw [IntType.convert_int32, Value.ofWord, Word.ofInt_toNat]
  simp [Terminator.emit, Code.executeAll, Code.execute, placeMeans.word?, program.halts?_code,
    halts, storedMeans.eval_eq, converted]

/-- A store anywhere else stores the value if it is inside the memory. -/
theorem executeAll_store (lawful : accessors.Lawful) (elsewhere : place ≠ program.haltAddress)
    (startMeans : Means (.ofMachine accessors machine locals) offset.emit (.ofWord start))
    {after : Machine} (storing : machine.store? ⟨start, width⟩ stored = some after) :
    program.code.executeAll accessors locals machine
        ((Terminator.haltOrStore width address offset value).emit program.table) =
      some (.onward locals after) := by
  rw [Machine.store?] at storing
  by_cases inside : machine.covers ⟨start, width⟩ = true
  · rw [if_pos inside] at storing
    cases storing
    have memory := lawful.store_eq width machine.memory start stored (of_decide_eq_true inside)
    simp [Terminator.emit, Code.executeAll, Code.execute, placeMeans.word?, program.halts?_code,
      elsewhere, startMeans.word?, storedMeans.word?, memory]
  · rw [if_neg inside] at storing
    cases storing

end HaltOrStore

/-- Executing a terminator leads where it asks for, whatever has been written before. -/
theorem executeAll_terminator (lawful : accessors.Lawful) {terminator : Terminator}
    {transfer : Transfer} (settled : terminator.Settled declared)
    (agrees : Agrees declared temps locals)
    (evaluates : terminator.eval machine program.haltAddress temps = .ok transfer)
    {written : Machine} {flow : Flow} (flows : program.flow? locals written transfer = some flow) :
    program.code.executeAll accessors locals written (terminator.emit program.table) =
      some flow := by
  cases terminator with
  | fallthrough =>
    cases evaluates
    exact flows
  | jump target =>
    cases evaluates
    exact (executeAll_single ..).trans ((follow_jumpTo target).trans flows)
  | branch cond left right target =>
    obtain ⟨first, leftValued, evaluates⟩ := exists_ok_of_bind_eq_ok evaluates
    obtain ⟨second, rightValued, evaluates⟩ := exists_ok_of_bind_eq_ok evaluates
    cases evaluates
    have leftMeans := settled.means lawful agrees (by simp [Terminator.exprs]) leftValued written
    have rightMeans := settled.means lawful agrees (by simp [Terminator.exprs]) rightValued written
    have test := (leftMeans.ofCond rightMeans cond).eval_eq
    refine (executeAll_single ..).trans ?_
    rw [Code.execute, test]
    by_cases holds : cond.holds first second = true
    · rw [if_pos holds] at flows
      simpa [Value.ofBool, holds] using (follow_jumpTo target).trans flows
    · rw [if_neg holds] at flows
      cases flows
      simp [Value.ofBool, holds]
  | dispatch target =>
    obtain ⟨address, valued, evaluates⟩ := exists_ok_of_bind_eq_ok evaluates
    cases evaluates
    have targetMeans := settled.means lawful agrees (by simp [Terminator.exprs]) valued written
    refine (executeAll_single ..).trans (Eq.trans ?_ flows)
    simp only [Code.execute, Code.follow, Code.jump?, targetMeans.eval_eq, Option.map_some,
      program.select?_code]
    rfl
  | haltOrStore width address offset value =>
    obtain ⟨stored, storedValued, evaluates⟩ := exists_ok_of_bind_eq_ok evaluates
    obtain ⟨place, placeValued, evaluates⟩ := exists_ok_of_bind_eq_ok evaluates
    have storedMeans :=
      settled.means lawful agrees (by simp [Terminator.exprs]) storedValued written
    have placeMeans := settled.means lawful agrees (by simp [Terminator.exprs]) placeValued written
    by_cases halts : place = program.haltAddress
    · rw [if_pos halts] at evaluates
      cases evaluates
      cases flows
      exact executeAll_halt placeMeans storedMeans halts
    · rw [if_neg halts] at evaluates
      obtain ⟨start, startValued, evaluates⟩ := exists_ok_of_bind_eq_ok evaluates
      cases evaluates
      have startMeans :=
        settled.means lawful agrees (by simp [Terminator.exprs]) startValued written
      obtain ⟨after, storing, rfl⟩ := Option.map_eq_some_iff.1 flows
      exact executeAll_store placeMeans storedMeans lawful halts startMeans storing

/-- Executing the block of C that a block was emitted as leads where the block does. -/
theorem executeAll_body (lawful : accessors.Lawful) {block : Block} (orderly : block.Orderly)
    {writeback : Option (Reg × Word)} {transfer : Transfer}
    (evaluates : block.eval machine program.haltAddress = .ok (writeback, transfer)) :
    ∃ locals, ∀ flow,
      program.flow? locals (machine.writeBack writeback) transfer = some flow →
        program.code.executeAll accessors .initial machine
          (block.stmts.map Stmt.emit ++ block.terminator.emit program.table) = some flow := by
  obtain ⟨frame, worked, evaluates⟩ := exists_ok_of_bind_eq_ok evaluates
  obtain ⟨asked, ended, evaluates⟩ := exists_ok_of_bind_eq_ok evaluates
  cases evaluates
  have fresh : Agrees [] Temps.initial Locals.initial := ⟨by simp, fun _ _ => rfl⟩
  obtain ⟨declared, locals, settled, agrees, same⟩ :=
    executeAll_stmts lawful program.code orderly fresh worked
      (block.terminator.emit program.table)
  refine ⟨locals, fun flow flows => same.trans ?_⟩
  exact executeAll_terminator lawful settled agrees ended flows

end Blocks

/-- Whether the blocks of a program are in order and jumps find them where the program does. -/
structure Program.Coherent (program : Program) : Prop where
  /-- The blocks are in order. -/
  orderly : ∀ {index : Nat} {block : Block}, program.blocks[index]? = some block → block.Orderly
  /-- Labels are found where addresses are. -/
  placed : ∀ {address : Word} {label : Label}, program.table.lookup? address = some label →
    program.code.position? label = program.blockIndex? address

section Runs

variable {program : Program} {accessors : Accessors} {block : Block} {index : Nat}
  {machine : Machine}

/-- Executing a block that goes on goes on where the program does. -/
theorem executeFrom_next (coherent : program.Coherent) (lawful : accessors.Lawful)
    (present : program.blocks[index]? = some block) {next : State}
    (stepped : program.step block index machine = .next next) (count : Nat) :
    program.code.executeFrom accessors (count + 1) index machine =
      program.code.executeFrom accessors count next.index next.machine := by
  have entered := program.getElem?_blocks_code index
  rw [present, Option.map_some] at entered
  unfold Program.step at stepped
  cases evaluated : block.eval machine program.haltAddress with
  | error access => simp [evaluated] at stepped
  | ok result =>
    obtain ⟨writeback, transfer⟩ := result
    simp only [evaluated] at stepped
    obtain ⟨locals, flows⟩ :=
      executeAll_body lawful (coherent.orderly present) evaluated
    cases transfer with
    | next =>
      cases stepped
      simp [Code.executeFrom, entered, flows _ rfl]
    | jump target =>
      cases stepped
      cases found : program.table.lookup? target with
      | none =>
        have onward := flows (.onward locals (machine.writeBack writeback))
          (by simp [Program.flow?, found])
        simp [Code.executeFrom, entered, onward, Program.blockIndex?, found]
      | some label =>
        have jumps := flows (.goto label (machine.writeBack writeback))
          (by simp [Program.flow?, found])
        have placed := coherent.placed found
        simp only [Program.blockIndex?, found, Option.map_some] at placed
        simp [Code.executeFrom, entered, jumps, Program.blockIndex?, found, placed]
    | halt value => cases stepped
    | store access value =>
      cases stored : (machine.writeBack writeback).store? access value with
      | none => simp [stored] at stepped
      | some after =>
        simp only [stored] at stepped
        cases stepped
        have onward := flows (.onward locals after) (by simp [Program.flow?, stored])
        simp [Code.executeFrom, entered, onward]

/-- Executing a block that halts returns its value. -/
theorem executeFrom_halted (coherent : program.Coherent) (lawful : accessors.Lawful)
    (present : program.blocks[index]? = some block) {value : Word} {final : Machine}
    (stepped : program.step block index machine = .halted value final) (count : Nat) :
    program.code.executeFrom accessors (count + 1) index machine =
      some (.returned value.toInt final) := by
  have entered := program.getElem?_blocks_code index
  rw [present, Option.map_some] at entered
  unfold Program.step at stepped
  cases evaluated : block.eval machine program.haltAddress with
  | error access => simp [evaluated] at stepped
  | ok result =>
    obtain ⟨writeback, transfer⟩ := result
    simp only [evaluated] at stepped
    obtain ⟨locals, flows⟩ :=
      executeAll_body lawful (coherent.orderly present) evaluated
    cases transfer with
    | next => cases stepped
    | jump target => cases stepped
    | halt value =>
      cases stepped
      simp [Code.executeFrom, entered, flows _ rfl]
    | store access value =>
      cases stored : (machine.writeBack writeback).store? access value with
      | none => simp [stored] at stepped
      | some after => simp [stored] at stepped

/-- Executing blocks follows the states of a run. -/
theorem executeFrom_after (coherent : program.Coherent) (lawful : accessors.Lawful) {count : Nat}
    {state last : State} (reached : program.after count state = some last) (extra : Nat) :
    program.code.executeFrom accessors (count + extra) state.index state.machine =
      program.code.executeFrom accessors extra last.index last.machine := by
  induction count generalizing state with
  | zero =>
    cases reached
    rw [Nat.zero_add]
  | succ count hypothesis =>
    obtain ⟨block, next, present, stepped, later⟩ := Program.exists_step_of_after reached
    rw [Nat.add_right_comm, executeFrom_next coherent lawful present stepped, hypothesis later]

/-- Behind the last block the function returns zero. -/
theorem executeFrom_past (past : program.blocks[index]? = none) (count : Nat) :
    program.code.executeFrom accessors count index machine = some (.returned 0 machine) := by
  have outside := program.getElem?_blocks_code index
  rw [past, Option.map_none] at outside
  have result : program.code.result.eval (.ofMachine accessors machine Locals.initial) =
      some ⟨.int32, (0 : Nat)⟩ :=
    (Means.number _ (by decide : 0 < 2 ^ 31) .decimal).eval_eq
  have finished : program.code.finish accessors machine = some (.returned 0 machine) := by
    rw [Code.finish, result]
    rfl
  cases count <;> simp only [Code.executeFrom, outside, finished]

end Runs

namespace Image

variable (image : Image) (settings : Settings)

/-- The blocks of a lifted image are in order and stand where jumps look for them. -/
theorem coherent_lift : (image.lift settings).Coherent where
  orderly {index block} present := by
    obtain ⟨-, rfl⟩ := eq_ofWord_of_getElem? present
    exact Block.orderly_ofWord ..
  placed {address label} found := by
    obtain ⟨rfl, aligned, inside⟩ : label = ⟨address⟩ ∧ (address - image.base).toNat % 4 = 0 ∧
        (address - image.base).toNat / 4 < image.wordCount :=
      JumpTable.lookup?_eq_some_iff.1 found
    have index : (image.lift settings).blockIndex? address =
        some ((address - image.base).toNat / 4) := by
      rw [Program.blockIndex?, found]
      rfl
    have labels : (image.lift settings).code.position? ⟨address⟩ =
        (image.lift settings).code.labels.findIdx? fun label => label = ⟨address⟩ := by
      rw [Code.labels, List.findIdx?_map]
      rfl
    rw [index, labels, labels_lift, List.findIdx?_eq_some_iff_getElem]
    -- The label stands at its distance from the base, and at no earlier place.
    refine ⟨by rwa [List.length_map, List.length_range], ?_, ?_⟩
    · rw [List.getElem_map, List.getElem_range, Word.address_of_distance aligned]
      exact decide_eq_true rfl
    · intro earlier before same
      have distance := Word.toNat_address_sub image.base earlier
      have place : Word.address image.base earlier = address := by simpa using same
      rw [place] at distance
      have bound := (address - image.base).isLt
      omega

/-- The source text of an image, read back, says the same as the program lifted from it, is
unambiguous, and runs as the program does: where a run of the program ends by itself, execution by
the rules of C returns the value the program ends with and leaves the same machine, and where the
run has entered all blocks allowed, execution goes on with the same block and the same machine. -/
theorem source_runs_as_program {accessors : Accessors} (lawful : accessors.Lawful)
    (small : image.wordCount ≤ 2 ^ 30) (annotate : Bool) :
    ∃ code, Code.read? ((image.lift settings).source annotate) = some code ∧ code.Linked ∧
      ∀ (machine : Machine) (limit : Nat) (final : Machine),
        (∀ exit, (image.lift settings).run limit machine = (.ok exit, final) →
          code.run accessors limit machine = some (.returned exit.code.toInt final)) ∧
        ((image.lift settings).run limit machine = (.error (.stepLimit limit), final) →
          ∃ index block, (image.lift settings).after limit (.start machine) = some ⟨index, final⟩ ∧
            (image.lift settings).blocks[index]? = some block ∧
            code.run accessors limit machine = some (.running block.label final)) := by
  have coherent := image.coherent_lift settings
  refine ⟨_, Program.read?_source _ annotate, image.linked_lift settings small, ?_⟩
  intro machine limit final
  have ending := (image.lift settings).ending_runFrom limit limit (.start machine)
  constructor
  · intro exit ended
    rw [← Program.run, ended] at ending
    cases ending with
    | fellThrough reached within past =>
      obtain ⟨extra, rfl⟩ := Nat.exists_eq_add_of_le within
      exact (executeFrom_after coherent lawful reached extra).trans (executeFrom_past past extra)
    | halted reached within present stepped =>
      obtain ⟨extra, rfl⟩ := Nat.exists_eq_add_of_lt within
      exact (executeFrom_after coherent lawful reached (extra + 1)).trans
        (executeFrom_halted coherent lawful present stepped extra)
  · intro ended
    rw [← Program.run, ended] at ending
    cases ending with
    | @stopped last block reached present =>
      refine ⟨last.index, block, reached, present, ?_⟩
      have followed := executeFrom_after coherent lawful reached 0
      refine followed.trans ?_
      simp [Code.executeFrom, Program.getElem?_blocks_code, present]

/-- Three instructions, `addi x1, x0, 5`, `lui x4, 0x11100` and `sw x1, 0(x4)`, return five in three
blocks and have not returned after two. -/
theorem source_runs_as_program_store :
    let image : Image := ⟨0x80000000,
      ⟨#[0x93, 0x00, 0x50, 0x00, 0x37, 0x02, 0x10, 0x11, 0x23, 0x20, 0x12, 0x00]⟩⟩
    let program := image.lift {}
    let machine := Machine.ofImage image
    ∃ code, Code.read? (program.source true) = some code ∧
      code.run .checked 3 machine = some (.returned 5 (program.run 3 machine).2) ∧
      ∃ next, code.run .checked 2 machine = some (.running next (program.run 2 machine).2) := by
  intro image program machine
  obtain ⟨code, read, -, runs⟩ :=
    source_runs_as_program image {} Accessors.checked_lawful (by decide) true
  have three : (program.run 3 machine).1 = .ok (.returned 5) := by decide +kernel
  have two : (program.run 2 machine).1 = .error (.stepLimit 2) := by decide +kernel
  have returned := (runs machine 3 _).1 (.returned 5) (Prod.ext three rfl)
  obtain ⟨index, block, -, -, running⟩ := (runs machine 2 _).2 (Prod.ext two rfl)
  exact ⟨code, read, returned, block.label, running⟩

end Image

end RvLift
