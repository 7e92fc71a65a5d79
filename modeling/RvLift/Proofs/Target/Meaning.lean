import Mathlib
import RvLift.Proofs.Arithmetic
import RvLift.Proofs.Block.Effect
import RvLift.Proofs.Block.Reads
import RvLift.Proofs.Bytes
import RvLift.Proofs.Target.Grouping
import RvLift.Proofs.Target.Semantics

/-!
# The meaning of emitted expressions

An emitted expression has a value by the rules of C wherever the expression it was emitted from has
one, and the two are the same. The arithmetic of each operator is compared with that of C, where
signed operands, wide products and guarded quotients always fit.
-/

namespace RvLift

namespace Target

/-- How guest memory is read and written, as the headers define it. -/
structure Accessors where
  /-- The value read, if reading is defined. -/
  load : Width → ByteArray → Word → Option Word
  /-- The memory after a write, if writing is defined. -/
  store : Width → ByteArray → Word → Word → Option ByteArray

/-- Inside memory, reads give the little-endian value of the bytes, extended by zeros, and writes
replace the bytes by the low ones of a value. -/
structure Accessors.Lawful (accessors : Accessors) : Prop where
  /-- What reads give. -/
  load_eq : ∀ width memory (offset : Word), offset.toNat + width.bytes ≤ memory.size →
    accessors.load width memory offset =
      some (BitVec.ofNat 32 (Bytes.readLittle memory offset.toNat width.bytes))
  /-- What writes leave. -/
  store_eq : ∀ width memory (offset value : Word), offset.toNat + width.bytes ≤ memory.size →
    accessors.store width memory offset value =
      some (Bytes.writeLittle memory offset.toNat width.bytes value.toNat)

/-- Reads and writes that are refused outside memory. -/
def Accessors.checked : Accessors where
  load width memory offset :=
    if offset.toNat + width.bytes ≤ memory.size then
      some (BitVec.ofNat 32 (Bytes.readLittle memory offset.toNat width.bytes))
    else none
  store width memory offset value :=
    if offset.toNat + width.bytes ≤ memory.size then
      some (Bytes.writeLittle memory offset.toNat width.bytes value.toNat)
    else none

/-- Refusing what lies outside memory keeps the laws. -/
theorem Accessors.checked_lawful : checked.Lawful where
  load_eq _ _ _ inside := if_pos inside
  store_eq _ _ _ _ inside := if_pos inside

/-- What names stand for in a block: the declared temporaries and a machine. -/
def Env.ofMachine (accessors : Accessors) (machine : Machine) (temps : Temp → Option Word) :
    Env where
  temp := temps
  register := fun source => some (machine.reg source)
  load := fun width offset => accessors.load width machine.memory offset

namespace IntType

/-- A number converted to an unsigned word is its word read as unsigned. -/
theorem convert_uint32 (value : Int) :
    uint32.convert value = ((BitVec.ofInt 32 value).toNat : Int) := by
  rw [BitVec.toNat_ofInt]
  change value % 2 ^ 32 = ((value % (2 ^ 32 : Nat)).toNat : Int)
  omega

/-- A number converted to a signed word is its word read as signed. -/
theorem convert_int32 (value : Int) : int32.convert value = (BitVec.ofInt 32 value).toInt :=
  (BitVec.toInt_ofInt value).symm

/-- The values of a type lie between its limits. -/
theorem fits_iff {type : IntType} {value : Int} :
    type.fits value = true ↔ type.least ≤ value ∧ value < type.bound := by
  rw [fits, decide_eq_true_iff]

/-- A value of a type is converted to itself. -/
theorem convert_of_fits {type : IntType} {value : Int} (inside : type.fits value = true) :
    type.convert value = value := by
  rw [fits_iff, least, bound] at inside
  unfold convert
  by_cases sign : type.signed = true
  · rw [if_pos sign, if_pos sign] at inside
    have half : ((2 ^ type.bits : Nat) : Int) = 2 * 2 ^ (type.bits - 1) := by cases type <;> rfl
    rw [if_pos sign]
    exact Int.bmod_eq_of_le (by omega) (by omega)
  · rw [if_neg sign, if_neg sign] at inside
    rw [if_neg sign]
    exact Int.emod_eq_of_lt inside.1 inside.2

/-- An unsigned word is a value of its type. -/
theorem fits_uint32 (word : Word) : uint32.fits word.toNat = true :=
  fits_iff.2 ⟨Int.natCast_nonneg _, Int.ofNat_lt.2 word.isLt⟩

/-- A signed word is a value of its type. -/
theorem fits_int32 (word : Word) : int32.fits word.toInt = true :=
  fits_iff.2 ⟨BitVec.le_toInt word, BitVec.toInt_lt⟩

/-- The first type that has a value. -/
theorem foldr_of_fits {type : IntType} {value : Nat} (inside : type.fits value = true)
    (later : List IntType) :
    (type :: later).foldr (fun type later => if type.fits value then some type else later) none =
      some type := by
  rw [List.foldr_cons, if_pos inside]

/-- A signed result that fits, and an unsigned one that needs no reduction. -/
theorem computed?_of_fits {type : IntType} {value : Int} (inside : type.fits value = true) :
    type.computed? value = some ⟨type, value⟩ := by
  rw [computed?, if_pos inside, convert_of_fits inside, ite_self]

/-- Unsigned words are computed with modulo 2^32, so that every result counts. -/
theorem computed?_uint32 (value : Int) :
    uint32.computed? value = some (.ofWord (BitVec.ofInt 32 value)) := by
  rw [Value.ofWord, ← convert_uint32]
  rfl

end IntType

namespace Value

/-- An unsigned word converted to its own type. -/
theorem convert_ofWord (word : Word) : (ofWord word).convert .uint32 = ofWord word := by
  rw [convert, ofWord, IntType.convert_of_fits (IntType.fits_uint32 word)]

/-- A value converted to an unsigned word. -/
theorem convert_uint32 (value : Value) :
    value.convert .uint32 = ofWord (BitVec.ofInt 32 value.value) := by
  rw [convert, ofWord, IntType.convert_uint32]

/-- An unsigned word converted to a signed one keeps its bits. -/
theorem convert_int32 (word : Word) : (ofWord word).convert .int32 = ⟨.int32, word.toInt⟩ := by
  rw [convert, ofWord, IntType.convert_int32, Word.ofInt_toNat]

end Value

/-- A signed word is a value of the wide signed type. -/
theorem IntType.fits_int64_toInt (word : Word) : int64.fits word.toInt = true := by
  have inside := fits_iff.1 (fits_int32 word)
  exact fits_iff.2 ⟨Int.le_trans (by decide) inside.1, Int.lt_trans inside.2 (by decide)⟩

/-- An unsigned word is a value of the wide types. -/
theorem IntType.fits_wide {type : IntType} (wide : 32 < type.bits) (word : Word) :
    type.fits word.toNat = true := by
  have limits : type.least ≤ 0 ∧ 2 ^ 32 ≤ type.bound := by
    cases type <;> first | decide | exact absurd wide (by decide)
  have high : (word.toNat : Int) < 2 ^ 32 := Int.ofNat_lt.2 word.isLt
  exact fits_iff.2 ⟨Int.le_trans limits.1 (Int.natCast_nonneg _), Int.lt_of_lt_of_le high limits.2⟩

/-- The product of a signed word and a signed or unsigned one is a value of the wide signed type. -/
theorem IntType.fits_int64_mul {left right : Int} (leftSmall : left.natAbs ≤ 2 ^ 31)
    (rightSmall : right.natAbs ≤ 2 ^ 32 - 1) : int64.fits (left * right) = true := by
  have limits : int64.least = -2 ^ 63 ∧ int64.bound = 2 ^ 63 := by decide
  rw [fits_iff, limits.1, limits.2]
  exact Word.product_range leftSmall rightSmall

/-- The product of two unsigned words is a value of the wide unsigned type. -/
theorem IntType.fits_uint64_mul (left right : Word) :
    uint64.fits (left.toNat * right.toNat) = true := by
  have product := Word.unsigned_product_lt left right
  have limits : uint64.least = 0 ∧ uint64.bound = 2 ^ 64 := by decide
  rw [fits_iff, limits.1, limits.2]
  norm_cast
  omega

/-- A signed quotient other than the one exception fits. -/
theorem IntType.fits_quotient {left right : Word}
    (fits : ¬ (left.toInt = -2 ^ 31 ∧ right.toInt = -1)) :
    int32.fits (left.toInt.tdiv right.toInt) = true := by
  rw [← MulDivOp.toInt_sdiv fits]
  exact fits_int32 _

namespace BinaryOp

/-- Operators other than shifts on operands of one type. -/
theorem evaluate?_same {op : BinaryOp} {type : IntType} {left right : Int}
    (plain : op ≠ .shiftLeft ∧ op ≠ .shiftRight) (own : type.promoted = type)
    (leftFits : type.fits left = true) (rightFits : type.fits right = true) :
    op.evaluate? ⟨type, left⟩ ⟨type, right⟩ = op.compute? type left right := by
  have common : type.common type = type := by
    rw [IntType.common, if_neg (Nat.lt_irrefl _), own]
  cases op
  case shiftLeft => exact absurd rfl plain.1
  case shiftRight => exact absurd rfl plain.2
  all_goals
    simp only [evaluate?, common, Value.convert, IntType.convert_of_fits leftFits,
      IntType.convert_of_fits rightFits]

/-- Operators other than shifts on unsigned words. -/
theorem evaluate?_words {op : BinaryOp} (plain : op ≠ .shiftLeft ∧ op ≠ .shiftRight)
    (left right : Word) :
    op.evaluate? (.ofWord left) (.ofWord right) = op.compute? .uint32 left.toNat right.toNat :=
  evaluate?_same plain rfl (IntType.fits_uint32 left) (IntType.fits_uint32 right)

/-- Operators other than shifts on signed words. -/
theorem evaluate?_signed {op : BinaryOp} (plain : op ≠ .shiftLeft ∧ op ≠ .shiftRight)
    (left right : Word) :
    op.evaluate? ⟨.int32, left.toInt⟩ ⟨.int32, right.toInt⟩ =
      op.compute? .int32 left.toInt right.toInt :=
  evaluate?_same plain rfl (IntType.fits_int32 left) (IntType.fits_int32 right)

/-- The bits of unsigned words are combined as those of words. -/
theorem bitwise_uint32 (combine : Word → Word → Word) (left right : Word) :
    bitwise .uint32 combine left.toNat right.toNat = .ofWord (combine left right) := by
  have whole := IntType.convert_of_fits (IntType.fits_uint32 (combine left right))
  simp only [bitwise, Value.ofWord]
  rw [show BitVec.ofInt IntType.uint32.bits left.toNat = left from Word.ofInt_toNat left,
    show BitVec.ofInt IntType.uint32.bits right.toNat = right from Word.ofInt_toNat right]
  exact congrArg (Value.mk .uint32) whole

/-- A shift by less than the bits of the type. -/
theorem shift?_of_lt {type : IntType} (exact : Int → Int) {amount : Nat}
    (small : amount < type.bits) :
    shift? type exact amount = type.computed? (exact (2 ^ amount)) := by
  rw [shift?, if_pos ⟨Int.natCast_nonneg amount, Int.ofNat_lt.2 small⟩, Int.toNat_natCast]

end BinaryOp

/-- The type of a choice between words. -/
theorem Expr.type?_conditional {condition whenTrue whenFalse : Expr}
    (trueTyped : whenTrue.type? = some .uint32) (falseTyped : whenFalse.type? = some .uint32) :
    (conditional condition whenTrue whenFalse).type? = some .uint32 := by
  rw [type?, trueTyped, falseTyped]
  rfl

/-- The type of an operator on words. -/
theorem Expr.type?_binary {op : BinaryOp} {left right : Expr}
    (leftTyped : left.type? = some .uint32) (rightTyped : right.type? = some .uint32) :
    (binary op left right).type? = some (op.resultType .uint32 .uint32) := by
  rw [type?, leftTyped, rightTyped]
  rfl

/-- An expression that has a value, of the type that the expression has. -/
structure Means (env : Env) (expr : Expr) (value : Value) : Prop where
  /-- The value. -/
  eval_eq : expr.eval env = some value
  /-- The type. -/
  type_eq : expr.type? = some value.type

namespace Means

variable {env : Env} {left right : Expr} {leftValue rightValue : Value}

/-- Parentheses do not change the meaning. -/
theorem paren (means : Means env left leftValue) : Means env (.paren left) leftValue :=
  ⟨means.eval_eq, means.type_eq⟩

/-- A cast converts the value. -/
theorem cast (means : Means env left leftValue) (type : IntType) :
    Means env (.cast type left) (leftValue.convert type) := by
  refine ⟨?_, rfl⟩
  change (left.eval env).map _ = _
  rw [means.eval_eq]
  rfl

/-- A cast to a type that has the value. -/
theorem castFits (means : Means env left leftValue) {type : IntType}
    (fits : type.fits leftValue.value = true) :
    Means env (.cast type left) ⟨type, leftValue.value⟩ := by
  have converted := means.cast type
  rwa [Value.convert, IntType.convert_of_fits fits] at converted

/-- An operator that evaluates both operands. -/
theorem binary {op : BinaryOp} {value : Value} (leftMeans : Means env left leftValue)
    (rightMeans : Means env right rightValue)
    (applied : op.evaluate? leftValue rightValue = some value)
    (typed : value.type = op.resultType leftValue.type rightValue.type) :
    Means env (.binary op left right) value := by
  constructor
  · cases op
    case logicalAnd => cases applied
    all_goals
      change ((left.eval env).bind fun leftValue => (right.eval env).bind fun rightValue =>
        BinaryOp.evaluate? _ leftValue rightValue) = _
      rw [leftMeans.eval_eq, Option.bind_some, rightMeans.eval_eq, Option.bind_some, applied]
  · change (left.type?.bind fun leftType => right.type?.bind fun rightType =>
      some (op.resultType leftType rightType)) = _
    rw [leftMeans.type_eq, Option.bind_some, rightMeans.type_eq, Option.bind_some, typed]

/-- A choice evaluates one of its branches and converts it to the type of both. -/
theorem conditional {test whenTrue whenFalse : Expr} {tested chosen : Value}
    {trueType falseType : IntType} (tests : Means env test tested)
    (trueTyped : whenTrue.type? = some trueType) (falseTyped : whenFalse.type? = some falseType)
    (chooses : (if tested.value ≠ 0 then whenTrue else whenFalse).eval env = some chosen) :
    Means env (.conditional test whenTrue whenFalse)
      (chosen.convert (trueType.common falseType)) := by
  have typed : (Expr.conditional test whenTrue whenFalse).type? =
      some (trueType.common falseType) := by
    change (whenTrue.type?.bind fun trueType => whenFalse.type?.bind fun falseType =>
      some (trueType.common falseType)) = _
    rw [trueTyped, Option.bind_some, falseTyped, Option.bind_some]
  refine ⟨?_, typed⟩
  change ((test.eval env).bind fun tested =>
    (Expr.conditional test whenTrue whenFalse).type?.bind fun type =>
      (if tested.value ≠ 0 then whenTrue.eval env else whenFalse.eval env).bind fun chosen =>
        some (chosen.convert type)) = _
  rw [tests.eval_eq, Option.bind_some, typed, Option.bind_some, ← apply_ite (Expr.eval env),
    chooses, Option.bind_some]

/-- A choice between two words. -/
theorem choose {test whenTrue whenFalse : Expr} {condition : Bool} {trueWord falseWord : Word}
    (tests : Means env test (.ofBool condition))
    (trueMeans : condition = true → Means env whenTrue (.ofWord trueWord))
    (trueTyped : whenTrue.type? = some .uint32) (falseTyped : whenFalse.type? = some .uint32)
    (falseMeans : condition = false → Means env whenFalse (.ofWord falseWord)) :
    Means env (.conditional test whenTrue whenFalse)
      (.ofWord (if condition then trueWord else falseWord)) := by
  cases condition with
  | true =>
    have chosen := tests.conditional trueTyped falseTyped (trueMeans rfl).eval_eq
    exact Value.convert_ofWord trueWord ▸ chosen
  | false =>
    have chosen := tests.conditional trueTyped falseTyped (falseMeans rfl).eval_eq
    exact Value.convert_ofWord falseWord ▸ chosen

/-- A conjunction of two tests. -/
theorem logicalAnd {first second : Bool} (leftMeans : Means env left (.ofBool first))
    (rightMeans : Means env right (.ofBool second)) :
    Means env (.binary .logicalAnd left right) (.ofBool (first && second)) := by
  constructor
  · change ((left.eval env).bind fun leftValue =>
      if leftValue.value = 0 then some (Value.ofBool false)
      else (right.eval env).bind fun rightValue => some (.ofBool (rightValue.value ≠ 0))) = _
    rw [leftMeans.eval_eq, Option.bind_some, rightMeans.eval_eq]
    cases first <;> cases second <;> rfl
  · change (left.type?.bind fun leftType => right.type?.bind fun rightType =>
      some (BinaryOp.logicalAnd.resultType leftType rightType)) = _
    rw [leftMeans.type_eq, Option.bind_some, rightMeans.type_eq, Option.bind_some]
    rfl

/-- A constant with the unsigned suffix. -/
theorem unsigned (env : Env) (word : Word) (radix : Radix) :
    Means env (.constant ⟨word.toNat, radix, true⟩) (.ofWord word) := by
  have typed : (Constant.mk word.toNat radix true).type? = some .uint32 := by
    cases radix <;> exact IntType.foldr_of_fits (IntType.fits_uint32 word) _
  refine ⟨?_, typed⟩
  change (Constant.mk word.toNat radix true).type?.map _ = _
  rw [typed]
  rfl

/-- A constant without a suffix that fits is signed, in either radix. -/
theorem number (env : Env) {value : Nat} (small : value < 2 ^ 31) (radix : Radix) :
    Means env (.constant ⟨value, radix, false⟩) ⟨.int32, value⟩ := by
  have inside : IntType.int32.fits value = true := by
    have least : IntType.int32.least ≤ 0 := by decide
    exact IntType.fits_iff.2 ⟨Int.le_trans least (Int.natCast_nonneg value), Int.ofNat_lt.2 small⟩
  have typed : (Constant.mk value radix false).type? = some .int32 := by
    cases radix <;> exact IntType.foldr_of_fits inside _
  refine ⟨?_, typed⟩
  change (Constant.mk value radix false).type?.map _ = _
  rw [typed]
  rfl

/-- A result converted to a word, modulo 2^32. -/
theorem toWord (means : Means env left leftValue) :
    Means env left.toWord (.ofWord (BitVec.ofInt 32 leftValue.value)) := by
  rw [← Value.convert_uint32]
  exact (means.cast .uint32).paren

/-- The high half of a product that fits. -/
theorem highProduct {type : IntType} {first second : Int} (leftMeans : Means env left ⟨type, first⟩)
    (rightMeans : Means env right ⟨type, second⟩) (own : type.promoted = type)
    (wide : 32 < type.bits) (leftFits : type.fits first = true)
    (rightFits : type.fits second = true) (productFits : type.fits (first * second) = true) :
    Means env (.highProduct left right) (.ofWord (BitVec.ofInt 32 (first * second / 2 ^ 32))) := by
  have limits : type.least ≤ 0 ∧ 0 < type.bound := by cases type <;> decide
  have highFits : type.fits (first * second / 2 ^ 32) = true := by
    have inside := IntType.fits_iff.1 productFits
    exact IntType.fits_iff.2 ⟨by omega, by omega⟩
  have multiplied : BinaryOp.mul.evaluate? ⟨type, first⟩ ⟨type, second⟩ =
      some ⟨type, first * second⟩ := by
    rw [BinaryOp.evaluate?_same (by decide) own leftFits rightFits]
    exact IntType.computed?_of_fits productFits
  have shifted : BinaryOp.shiftRight.evaluate? ⟨type, first * second⟩ ⟨.int32, (32 : Nat)⟩ =
      some ⟨type, first * second / 2 ^ 32⟩ := by
    change BinaryOp.shift? type.promoted (fun power => first * second / power) (32 : Nat) = _
    rw [own, BinaryOp.shift?_of_lt _ wide, IntType.computed?_of_fits highFits]
  have resultType : type.common type = type := by
    rw [IntType.common, if_neg (Nat.lt_irrefl _), own]
  have product := (leftMeans.binary rightMeans multiplied resultType.symm).paren
  have amount := number env (by decide : 32 < 2 ^ 31) .decimal
  exact (product.binary amount shifted own.symm).paren.toWord

/-- Minus one, written with a minus sign in front of a constant. -/
theorem minusOne (env : Env) :
    Means env (.negate (.constant ⟨1, .decimal, false⟩)) ⟨.int32, -1⟩ := by
  have one := number env (by decide : 1 < 2 ^ 31) .decimal
  constructor
  · change ((Expr.constant ⟨1, .decimal, false⟩).eval env).bind _ = _
    rw [one.eval_eq]
    exact IntType.computed?_of_fits (IntType.fits_int32 Word.allOnes)
  · change (Expr.constant ⟨1, .decimal, false⟩).type?.map _ = _
    rw [one.type_eq]
    rfl

section Words

variable {first second : Word} (leftMeans : Means env left (.ofWord first))
  (rightMeans : Means env right (.ofWord second))

include leftMeans

/-- A word read as signed. -/
theorem asSigned : Means env left.asSigned ⟨.int32, first.toInt⟩ := by
  rw [← Value.convert_int32]
  exact leftMeans.cast .int32

/-- The five low bits of a word. -/
theorem shiftAmount : Means env left.shiftAmount ⟨.uint32, (first.toNat % 32 : Nat)⟩ := by
  have mask := number env (by decide : 0x1f < 2 ^ 31) .hexadecimal
  have applied : BinaryOp.bitAnd.evaluate? (.ofWord first) ⟨.int32, (0x1f : Nat)⟩ =
      some (.ofWord (first &&& 0x1f)) := by
    have both : BinaryOp.bitAnd.evaluate? (.ofWord first) ⟨.int32, (0x1f : Nat)⟩ =
        some (BinaryOp.bitwise .uint32 (· &&& ·) (IntType.uint32.convert first.toNat)
          (IntType.uint32.convert (0x1f : Word).toNat)) := rfl
    rw [both, IntType.convert_of_fits (IntType.fits_uint32 _),
      IntType.convert_of_fits (IntType.fits_uint32 _)]
    exact congrArg some (BinaryOp.bitwise_uint32 (· &&& ·) first 0x1f)
  have low : (first &&& 0x1f).toNat = first.toNat % 32 := by
    rw [BitVec.toNat_and]
    exact Nat.and_two_pow_sub_one_eq_mod first.toNat 5
  rw [← low]
  exact (leftMeans.binary mask applied rfl).paren

include rightMeans

/-- An operator in parentheses that gives a word. -/
theorem infixedWord (op : BinaryOp) {word : Word} (plain : op ≠ .shiftLeft ∧ op ≠ .shiftRight)
    (computed : op.compute? .uint32 first.toNat second.toNat = some (.ofWord word))
    (typed : op.resultType .uint32 .uint32 = .uint32) :
    Means env (.infixed op left right) (.ofWord word) := by
  have applied : op.evaluate? (.ofWord first) (.ofWord second) = some (.ofWord word) := by
    rw [BinaryOp.evaluate?_words plain, computed]
  exact (leftMeans.binary rightMeans applied typed.symm).paren

/-- The exact result of an operator in parentheses, reduced to a word. -/
theorem infixedExact (op : BinaryOp) {exact : Int} (plain : op ≠ .shiftLeft ∧ op ≠ .shiftRight)
    (computed : op.compute? .uint32 first.toNat second.toNat = IntType.uint32.computed? exact)
    (typed : op.resultType .uint32 .uint32 = .uint32) :
    Means env (.infixed op left right) (.ofWord (BitVec.ofInt 32 exact)) :=
  infixedWord leftMeans rightMeans op plain (computed.trans (IntType.computed?_uint32 exact)) typed

/-- A test of two unsigned words. -/
theorem testUnsigned (op : BinaryOp) {condition : Bool}
    (plain : op ≠ .shiftLeft ∧ op ≠ .shiftRight)
    (computed : op.compute? .uint32 first.toNat second.toNat = some (.ofBool condition))
    (typed : op.resultType .uint32 .uint32 = .int32) :
    Means env (.binary op left right) (.ofBool condition) := by
  have applied : op.evaluate? (.ofWord first) (.ofWord second) = some (.ofBool condition) := by
    rw [BinaryOp.evaluate?_words plain, computed]
  exact leftMeans.binary rightMeans applied typed.symm

/-- A test of two words read as signed. -/
theorem testSigned (op : BinaryOp) {condition : Bool}
    (plain : op ≠ .shiftLeft ∧ op ≠ .shiftRight)
    (computed : op.compute? .int32 first.toInt second.toInt = some (.ofBool condition))
    (typed : op.resultType .int32 .int32 = .int32) :
    Means env (.binary op left.asSigned right.asSigned) (.ofBool condition) := by
  have applied : op.evaluate? ⟨.int32, first.toInt⟩ ⟨.int32, second.toInt⟩ =
      some (.ofBool condition) := by
    rw [BinaryOp.evaluate?_signed plain, computed]
  exact leftMeans.asSigned.binary rightMeans.asSigned applied typed.symm

/-- The text of a branch condition tests the condition. -/
theorem ofCond (cond : Cond) :
    Means env (.ofCond cond left right) (.ofBool (cond.holds first second)) := by
  have equal : decide ((first.toNat : Int) = second.toNat) = Cond.eq.holds first second := by
    rw [Bool.eq_iff_iff, decide_eq_true_iff, Cond.holds_iff]
    exact Int.ofNat_inj
  have notEqual : decide ((first.toNat : Int) ≠ second.toNat) = Cond.ne.holds first second := by
    rw [Bool.eq_iff_iff, decide_eq_true_iff, Cond.holds_iff]
    exact not_congr Int.ofNat_inj
  have less : decide (first.toInt < second.toInt) = Cond.lt.holds first second := by
    rw [Bool.eq_iff_iff, decide_eq_true_iff, Cond.holds_iff]
  have greater : decide (first.toInt ≥ second.toInt) = Cond.ge.holds first second := by
    rw [Bool.eq_iff_iff, decide_eq_true_iff, Cond.holds_iff]
  have below : decide ((first.toNat : Int) < second.toNat) = Cond.ltu.holds first second := by
    rw [Bool.eq_iff_iff, decide_eq_true_iff, Cond.holds_iff]
    exact Int.ofNat_lt
  have above : decide ((first.toNat : Int) ≥ second.toNat) = Cond.geu.holds first second := by
    rw [Bool.eq_iff_iff, decide_eq_true_iff, Cond.holds_iff]
    exact Int.ofNat_le
  cases cond with
  | eq => exact equal ▸ leftMeans.testUnsigned rightMeans .equal (by decide) rfl rfl
  | ne => exact notEqual ▸ leftMeans.testUnsigned rightMeans .notEqual (by decide) rfl rfl
  | lt => exact less ▸ leftMeans.testSigned rightMeans .less (by decide) rfl rfl
  | ge => exact greater ▸ leftMeans.testSigned rightMeans .greaterEqual (by decide) rfl rfl
  | ltu => exact below ▸ leftMeans.testUnsigned rightMeans .less (by decide) rfl rfl
  | geu => exact above ▸ leftMeans.testUnsigned rightMeans .greaterEqual (by decide) rfl rfl

/-- A left shift by the low bits of a word. -/
theorem shiftLeft :
    Means env (.infixed .shiftLeft left right.shiftAmount)
      (.ofWord (BitVec.ofInt 32 (first.toNat * 2 ^ (second.toNat % 32)))) := by
  have nonnegative : ¬ ((first.toNat : Int) < 0) := by omega
  have small : second.toNat % 32 < IntType.uint32.bits := Nat.mod_lt _ (by decide)
  have applied : BinaryOp.shiftLeft.evaluate? (.ofWord first) ⟨.uint32, (second.toNat % 32 : Nat)⟩ =
      some (.ofWord (BitVec.ofInt 32 (first.toNat * 2 ^ (second.toNat % 32)))) := by
    change (if (first.toNat : Int) < 0 then none
      else BinaryOp.shift? .uint32 (fun power => first.toNat * power) (second.toNat % 32 : Nat)) = _
    rw [if_neg nonnegative, BinaryOp.shift?_of_lt _ small, IntType.computed?_uint32]
  exact (leftMeans.binary rightMeans.shiftAmount applied rfl).paren

/-- A logical right shift by the low bits of a word. -/
theorem shiftRight :
    Means env (.infixed .shiftRight left right.shiftAmount)
      (.ofWord (BitVec.ofInt 32 (first.toNat / 2 ^ (second.toNat % 32)))) := by
  have small : second.toNat % 32 < IntType.uint32.bits := Nat.mod_lt _ (by decide)
  have applied : BinaryOp.shiftRight.evaluate? (.ofWord first)
      ⟨.uint32, (second.toNat % 32 : Nat)⟩ =
      some (.ofWord (BitVec.ofInt 32 (first.toNat / 2 ^ (second.toNat % 32)))) := by
    change BinaryOp.shift? .uint32 (fun power => first.toNat / power) (second.toNat % 32 : Nat) = _
    rw [BinaryOp.shift?_of_lt _ small, IntType.computed?_uint32]
  exact (leftMeans.binary rightMeans.shiftAmount applied rfl).paren

/-- An arithmetic right shift by the low bits of a word. Its result still fits, as it is no larger
than what is shifted. -/
theorem shiftRightSigned :
    Means env (.infixed .shiftRight left.asSigned right.shiftAmount)
      ⟨.int32, first.toInt / 2 ^ (second.toNat % 32)⟩ := by
  have small : second.toNat % 32 < IntType.int32.bits := Nat.mod_lt _ (by decide)
  have inside : IntType.int32.fits (first.toInt / 2 ^ (second.toNat % 32)) = true := by
    rw [← AluOp.toInt_sra]
    exact IntType.fits_int32 _
  have applied : BinaryOp.shiftRight.evaluate? ⟨.int32, first.toInt⟩
      ⟨.uint32, (second.toNat % 32 : Nat)⟩ =
      some ⟨.int32, first.toInt / 2 ^ (second.toNat % 32)⟩ := by
    change BinaryOp.shift? .int32 (fun power => first.toInt / power) (second.toNat % 32 : Nat) = _
    rw [BinaryOp.shift?_of_lt _ small, IntType.computed?_of_fits inside]
  exact (leftMeans.asSigned.binary rightMeans.shiftAmount applied rfl).paren

/-- The text of an arithmetic operation has its result, with no signed operation that could
overflow. -/
theorem ofAlu (op : AluOp) :
    Means env (.ofAlu op left right) (.ofWord (op.apply first second)) := by
  have test (condition : Bool) :
      BitVec.ofInt 32 (Value.ofBool condition).value = if condition then (1 : Word) else 0 := by
    cases condition <;> rfl
  cases op with
  | add =>
    have sum : BitVec.ofInt 32 (first.toNat + second.toNat) = AluOp.add.apply first second := by
      rw [BitVec.ofInt_add, Word.ofInt_toNat, Word.ofInt_toNat, AluOp.apply]
    rw [← sum]
    exact leftMeans.infixedExact rightMeans .add (by decide) rfl rfl
  | sub =>
    have difference : BitVec.ofInt 32 (first.toNat - second.toNat) =
        AluOp.sub.apply first second := by
      rw [Int.sub_eq_add_neg, BitVec.ofInt_add, BitVec.ofInt_neg, Word.ofInt_toNat,
        Word.ofInt_toNat, AluOp.apply, BitVec.sub_eq_add_neg]
    rw [← difference]
    exact leftMeans.infixedExact rightMeans .sub (by decide) rfl rfl
  | sll =>
    have shifted := leftMeans.shiftLeft rightMeans
    rw [AluOp.apply_sll, ← BitVec.ofInt_natCast]
    exact_mod_cast shifted
  | slt =>
    have less := (leftMeans.testSigned rightMeans .less (by decide) rfl rfl).paren.toWord
    simp only [test, decide_eq_true_iff] at less
    rw [AluOp.apply_slt]
    exact less
  | sltu =>
    have less := (leftMeans.testUnsigned rightMeans .less (by decide) rfl rfl).paren.toWord
    simp only [test, decide_eq_true_iff, Int.ofNat_lt] at less
    rw [AluOp.apply_sltu]
    exact less
  | xor =>
    exact leftMeans.infixedWord rightMeans .bitXor (by decide)
      (congrArg some (BinaryOp.bitwise_uint32 (· ^^^ ·) first second)) rfl
  | srl =>
    have shifted := leftMeans.shiftRight rightMeans
    rw [AluOp.apply_srl, ← BitVec.ofInt_natCast]
    exact_mod_cast shifted
  | sra =>
    rw [AluOp.apply_sra]
    exact (leftMeans.shiftRightSigned rightMeans).toWord
  | or =>
    exact leftMeans.infixedWord rightMeans .bitOr (by decide)
      (congrArg some (BinaryOp.bitwise_uint32 (· ||| ·) first second)) rfl
  | and =>
    exact leftMeans.infixedWord rightMeans .bitAnd (by decide)
      (congrArg some (BinaryOp.bitwise_uint32 (· &&& ·) first second)) rfl

/-- The test for the one signed quotient that does not fit. -/
theorem quotientOverflows :
    Means env (.quotientOverflows left right)
      (.ofBool (decide (first.toInt = -2 ^ 31 ∧ second.toInt = -1))) := by
  have leastFits : IntType.int32.fits (-2 ^ 31) = true := IntType.fits_int32 Word.minSigned
  have oneFits : IntType.int32.fits (-1) = true := IntType.fits_int32 Word.allOnes
  have least : BinaryOp.equal.evaluate? ⟨.int32, first.toInt⟩ ⟨.int32, -2 ^ 31⟩ =
      some (.ofBool (first.toInt = -2 ^ 31)) := by
    rw [BinaryOp.evaluate?_same (by decide) rfl (IntType.fits_int32 first) leastFits]
    rfl
  have minus : BinaryOp.equal.evaluate? ⟨.int32, second.toInt⟩ ⟨.int32, -1⟩ =
      some (.ofBool (second.toInt = -1)) := by
    rw [BinaryOp.evaluate?_same (by decide) rfl (IntType.fits_int32 second) oneFits]
    rfl
  have leastMeans : Means env .leastInt32 ⟨.int32, -2 ^ 31⟩ := ⟨rfl, rfl⟩
  have both := (leftMeans.asSigned.binary leastMeans least rfl).logicalAnd
    (rightMeans.asSigned.binary (minusOne env) minus rfl)
  rw [← Bool.decide_and] at both
  exact both.paren

omit leftMeans in
/-- A choice of words by the test for a zero divisor. -/
theorem chooseZero {whenTrue whenFalse : Expr} {trueWord falseWord : Word}
    (trueMeans : Means env whenTrue (.ofWord trueWord))
    (falseTyped : whenFalse.type? = some .uint32)
    (falseMeans : second ≠ 0 → Means env whenFalse (.ofWord falseWord)) :
    Means env (.paren (.conditional right.isZero whenTrue whenFalse))
      (.ofWord (if second = 0 then trueWord else falseWord)) := by
  have applied : BinaryOp.equal.evaluate? (.ofWord second) ⟨.int32, (0 : Nat)⟩ =
      some (.ofBool (decide (second = 0))) := by
    change some (Value.ofBool (decide (IntType.uint32.convert second.toNat = 0))) = _
    rw [IntType.convert_of_fits (IntType.fits_uint32 second)]
    simp [← BitVec.toNat_inj]
  have zero := rightMeans.binary (number env (by decide : 0 < 2 ^ 31) .decimal) applied rfl
  have chosen := zero.choose (fun _ => trueMeans) trueMeans.type_eq falseTyped
    fun divisor => falseMeans (of_decide_eq_false divisor)
  simp only [decide_eq_true_iff] at chosen
  exact chosen.paren

/-- A choice of words by the test for the one signed quotient that does not fit. The other word
needs a meaning only where the quotient fits. -/
theorem chooseOverflow {whenTrue whenFalse : Expr} {trueWord falseWord : Word}
    (trueMeans : Means env whenTrue (.ofWord trueWord))
    (falseTyped : whenFalse.type? = some .uint32)
    (falseMeans : ¬ (first.toInt = -2 ^ 31 ∧ second.toInt = -1) →
      Means env whenFalse (.ofWord falseWord)) :
    Means env (.conditional (.quotientOverflows left right) whenTrue whenFalse)
      (.ofWord (if first.toInt = -2 ^ 31 ∧ second.toInt = -1 then trueWord else falseWord)) := by
  have chosen := (leftMeans.quotientOverflows rightMeans).choose (fun _ => trueMeans)
    trueMeans.type_eq falseTyped fun fits => falseMeans (of_decide_eq_false fits)
  simpa only [decide_eq_true_iff] using chosen

/-- The signed quotient, where it exists. -/
theorem quotient (nonzero : second ≠ 0) (fits : ¬ (first.toInt = -2 ^ 31 ∧ second.toInt = -1)) :
    Means env (.cast .uint32 (.infixed .div left.asSigned right.asSigned))
      (.ofWord (BitVec.ofInt 32 (first.toInt.tdiv second.toInt))) := by
  have divisor : second.toInt ≠ 0 := Word.toInt_ne_zero nonzero
  have inside := IntType.fits_quotient fits
  have applied : BinaryOp.div.evaluate? ⟨.int32, first.toInt⟩ ⟨.int32, second.toInt⟩ =
      some ⟨.int32, first.toInt.tdiv second.toInt⟩ := by
    rw [BinaryOp.evaluate?_signed (by decide), BinaryOp.compute?, if_neg divisor,
      IntType.computed?_of_fits inside]
  rw [← Value.convert_uint32 ⟨.int32, _⟩]
  exact (leftMeans.asSigned.binary rightMeans.asSigned applied rfl).paren.cast .uint32

/-- The signed remainder, where the quotient exists: without it, the remainder would be undefined as
well. -/
theorem remainder (nonzero : second ≠ 0) (fits : ¬ (first.toInt = -2 ^ 31 ∧ second.toInt = -1)) :
    Means env (.cast .uint32 (.infixed .mod left.asSigned right.asSigned))
      (.ofWord (BitVec.ofInt 32 (first.toInt.tmod second.toInt))) := by
  have divisor : second.toInt ≠ 0 := Word.toInt_ne_zero nonzero
  have inside : IntType.int32.fits (first.toInt.tmod second.toInt) = true := by
    rw [← BitVec.toInt_srem]
    exact IntType.fits_int32 _
  have applied : BinaryOp.mod.evaluate? ⟨.int32, first.toInt⟩ ⟨.int32, second.toInt⟩ =
      some ⟨.int32, first.toInt.tmod second.toInt⟩ := by
    rw [BinaryOp.evaluate?_signed (by decide), BinaryOp.compute?, if_neg divisor,
      if_pos (IntType.fits_quotient fits), IntType.computed?_of_fits inside]
  rw [← Value.convert_uint32 ⟨.int32, _⟩]
  exact (leftMeans.asSigned.binary rightMeans.asSigned applied rfl).paren.cast .uint32

/-- The unsigned quotient by a divisor other than zero. -/
theorem quotientUnsigned (nonzero : second ≠ 0) :
    Means env (.binary .div left right)
      (.ofWord (BitVec.ofNat 32 (first.toNat / second.toNat))) := by
  have divisor : (second.toNat : Int) ≠ 0 :=
    Int.natCast_ne_zero.2 (Word.toNat_ne_zero nonzero)
  have applied : BinaryOp.div.evaluate? (.ofWord first) (.ofWord second) =
      some (.ofWord (BitVec.ofNat 32 (first.toNat / second.toNat))) := by
    rw [BinaryOp.evaluate?_words (by decide), BinaryOp.compute?, if_neg divisor,
      IntType.computed?_uint32, ← Int.ofNat_tdiv, BitVec.ofInt_natCast]
  exact leftMeans.binary rightMeans applied rfl

/-- The unsigned remainder by a divisor other than zero. -/
theorem remainderUnsigned (nonzero : second ≠ 0) :
    Means env (.binary .mod left right)
      (.ofWord (BitVec.ofNat 32 (first.toNat % second.toNat))) := by
  have divisor : (second.toNat : Int) ≠ 0 :=
    Int.natCast_ne_zero.2 (Word.toNat_ne_zero nonzero)
  have fits : IntType.uint32.fits ((first.toNat : Int).tdiv second.toNat) = true := by
    have small := Nat.lt_of_le_of_lt (Nat.div_le_self first.toNat second.toNat) first.isLt
    rw [← Int.ofNat_tdiv]
    exact IntType.fits_iff.2 ⟨Int.natCast_nonneg _, Int.ofNat_lt.2 small⟩
  have applied : BinaryOp.mod.evaluate? (.ofWord first) (.ofWord second) =
      some (.ofWord (BitVec.ofNat 32 (first.toNat % second.toNat))) := by
    rw [BinaryOp.evaluate?_words (by decide), BinaryOp.compute?, if_neg divisor, if_pos fits,
      IntType.computed?_uint32, ← Int.ofNat_tmod, BitVec.ofInt_natCast]
  exact leftMeans.binary rightMeans applied rfl

/-- The text of a multiplication or division has its result. Divisions are reached only where the
choices in front of them leave the quotient defined. -/
theorem ofMulDiv (op : MulDivOp) :
    Means env (.ofMulDiv op left right) (.ofWord (op.apply first second)) := by
  have ones := unsigned env Word.allOnes .hexadecimal
  have zero := unsigned env 0 .decimal
  have signed := leftMeans.asSigned.castFits (IntType.fits_int64_toInt first)
  cases op with
  | mul =>
    have product : BitVec.ofInt 32 (first.toNat * second.toNat) =
        MulDivOp.mul.apply first second := by
      rw [BitVec.ofInt_mul, Word.ofInt_toNat, Word.ofInt_toNat, MulDivOp.apply]
    rw [← product]
    exact leftMeans.infixedExact rightMeans .mul (by decide) rfl rfl
  | mulh =>
    have other := rightMeans.asSigned.castFits (IntType.fits_int64_toInt second)
    have product := IntType.fits_int64_mul first.natAbs_toInt_le
      (Nat.le_trans second.natAbs_toInt_le (by decide))
    rw [MulDivOp.apply_mulh]
    exact signed.highProduct other rfl (by decide) (IntType.fits_int64_toInt first)
      (IntType.fits_int64_toInt second) product
  | mulhsu =>
    have fits := IntType.fits_wide (by decide : 32 < IntType.int64.bits) second
    have product := IntType.fits_int64_mul first.natAbs_toInt_le
      (Nat.le_sub_one_of_lt second.isLt : (second.toNat : Int).natAbs ≤ 2 ^ 32 - 1)
    rw [MulDivOp.apply_mulhsu]
    exact signed.highProduct (rightMeans.castFits fits) rfl (by decide)
      (IntType.fits_int64_toInt first) fits product
  | mulhu =>
    have leftFits := IntType.fits_wide (by decide : 32 < IntType.uint64.bits) first
    have rightFits := IntType.fits_wide (by decide : 32 < IntType.uint64.bits) second
    have high := (leftMeans.castFits leftFits).highProduct (rightMeans.castFits rightFits) rfl
      (by decide) leftFits rightFits (IntType.fits_uint64_mul first second)
    rw [MulDivOp.apply_mulhu, ← BitVec.ofInt_natCast]
    exact_mod_cast high
  | div =>
    have typed (condition quotient : Expr) :
        (Expr.conditional condition left (.cast .uint32 quotient)).type? = some .uint32 :=
      Expr.type?_conditional leftMeans.type_eq rfl
    rw [MulDivOp.apply_div]
    exact rightMeans.chooseZero ones (typed _ _) fun nonzero =>
      leftMeans.chooseOverflow rightMeans leftMeans rfl fun fits =>
        leftMeans.quotient rightMeans nonzero fits
  | divu =>
    rw [MulDivOp.apply_divu]
    exact rightMeans.chooseZero ones
      (Expr.type?_binary leftMeans.type_eq rightMeans.type_eq) fun nonzero =>
        leftMeans.quotientUnsigned rightMeans nonzero
  | rem =>
    have typed (condition remainder : Expr) : (Expr.conditional condition
        (.constant ⟨0, .decimal, true⟩) (.cast .uint32 remainder)).type? = some .uint32 :=
      Expr.type?_conditional zero.type_eq rfl
    rw [MulDivOp.apply_rem]
    exact rightMeans.chooseZero leftMeans (typed _ _) fun nonzero =>
      leftMeans.chooseOverflow rightMeans zero rfl fun fits =>
        leftMeans.remainder rightMeans nonzero fits
  | remu =>
    rw [MulDivOp.apply_remu]
    exact rightMeans.chooseZero leftMeans
      (Expr.type?_binary leftMeans.type_eq rightMeans.type_eq) fun nonzero =>
        leftMeans.remainderUnsigned rightMeans nonzero

end Words

/-- A word converted through a narrow signed type. -/
theorem narrow {word : Word} (means : Means env left (.ofWord word)) {type : IntType}
    (signed : type.signed = true) :
    Means env (Expr.cast type left).toWord
      (.ofWord ((word.setWidth type.bits).signExtend 32)) := by
  have low : ((Value.ofWord word).convert type).value = (word.setWidth type.bits).toInt := by
    rw [BitVec.toInt_setWidth]
    exact if_pos signed
  have narrowed := (means.cast type).toWord
  rw [low] at narrowed
  exact narrowed

/-- The text of a load has the loaded value, with its sign extended where that is asked for. -/
theorem ofLoad {offset value : Word} {width : Width} (signed : Bool)
    (means : Means env left (.ofWord offset)) (loaded : env.load width offset = some value) :
    Means env (.ofLoad width signed left)
      (.ofWord (if signed then width.signExtend value else value)) := by
  have load : Means env (.load width left) (.ofWord value) := by
    refine ⟨?_, rfl⟩
    change ((left.eval env).bind fun start =>
      (env.load width (BitVec.ofInt 32 start.value)).bind fun value =>
        some (Value.ofWord value)) = _
    rw [means.eval_eq, Option.bind_some, Value.ofWord, Word.ofInt_toNat, loaded, Option.bind_some]
  have whole : BitVec.ofInt 32 (value.toNat : Int) = value := Word.ofInt_toNat value
  cases width with
  | byte =>
    cases signed with
    | true => exact load.narrow rfl
    | false => exact whole ▸ load.toWord
  | half =>
    cases signed with
    | true => exact load.narrow rfl
    | false => exact whole ▸ load.toWord
  | word => cases signed <;> exact whole ▸ load.toWord

end Means

end Target

namespace Expr

section Emission

variable {accessors : Target.Accessors} {machine : Machine} {temps : Temps}

/-- Emitted expressions have the values of what they were emitted from. Only the temporaries that
are read have to be declared. -/
theorem means_emit (lawful : accessors.Lawful) {declared : Temp → Option Word} {expr : Expr}
    {value : Word} (reads : ∀ source, expr.Reads source → declared source = some (temps source))
    (evaluates : expr.eval machine temps = .ok value) :
    Target.Means (.ofMachine accessors machine declared) expr.emit (.ofWord value) := by
  induction expr generalizing value with
  | imm constant =>
    cases evaluates
    exact Target.Means.unsigned _ constant .hexadecimal
  | reg source =>
    cases evaluates
    exact ⟨rfl, rfl⟩
  | temp source =>
    cases evaluates
    refine ⟨?_, rfl⟩
    change (declared source).map _ = _
    rw [reads source rfl]
    rfl
  | alu op left right leftHypothesis rightHypothesis =>
    obtain ⟨first, leftEvaluates, evaluates⟩ := exists_ok_of_bind_eq_ok evaluates
    obtain ⟨second, rightEvaluates, evaluates⟩ := exists_ok_of_bind_eq_ok evaluates
    cases evaluates
    have leftMeans := leftHypothesis (fun source read => reads source (.inl read)) leftEvaluates
    have rightMeans := rightHypothesis (fun source read => reads source (.inr read)) rightEvaluates
    exact leftMeans.ofAlu rightMeans op
  | mulDiv op left right leftHypothesis rightHypothesis =>
    obtain ⟨first, leftEvaluates, evaluates⟩ := exists_ok_of_bind_eq_ok evaluates
    obtain ⟨second, rightEvaluates, evaluates⟩ := exists_ok_of_bind_eq_ok evaluates
    cases evaluates
    have leftMeans := leftHypothesis (fun source read => reads source (.inl read)) leftEvaluates
    have rightMeans := rightHypothesis (fun source read => reads source (.inr read)) rightEvaluates
    exact leftMeans.ofMulDiv rightMeans op
  | load width signed offset hypothesis =>
    obtain ⟨start, offsetEvaluates, evaluates⟩ := exists_ok_of_bind_eq_ok evaluates
    obtain ⟨loaded, loads, evaluates⟩ := exists_ok_of_bind_eq_ok evaluates
    cases evaluates
    have inside : machine.covers ⟨start, width⟩ = true := by
      by_cases covered : machine.covers ⟨start, width⟩ = true
      · exact covered
      · rw [Machine.load, if_neg covered] at loads
        cases loads
    rw [Machine.load_of_covers inside] at loads
    cases loads
    exact (hypothesis reads offsetEvaluates).ofLoad signed
      (lawful.load_eq width machine.memory start (of_decide_eq_true inside))

end Emission

/-- The text of every emitted expression is an expression of C as a whole, and wherever the
expression it was emitted from has a value, it has the same value as an unsigned word, with nothing
undefined on the way. The same holds of the text of a branch condition, which is one or zero. -/
theorem emitted_text_means {accessors : Target.Accessors} (lawful : accessors.Lawful) :
    (∀ expr : Expr, ∃ tree, Target.Expr.read? expr.emit.text = some tree ∧
      ∀ machine temps value, expr.eval machine temps = .ok value →
        tree.eval (.ofMachine accessors machine fun source => some (temps source)) =
          some (.ofWord value)) ∧
    ∀ (cond : Cond) (left right : Expr), ∃ tree,
      Target.Expr.read? (Target.Expr.ofCond cond left.emit right.emit).text = some tree ∧
      ∀ machine temps first second, left.eval machine temps = .ok first →
        right.eval machine temps = .ok second →
        tree.eval (.ofMachine accessors machine fun source => some (temps source)) =
          some (.ofBool (cond.holds first second)) := by
  constructor
  · intro expr
    refine ⟨expr.emit, Target.Expr.read?_text expr.tight_emit.1, ?_⟩
    intro machine temps value evaluates
    exact (means_emit lawful (fun _ _ => rfl) evaluates).eval_eq
  · intro cond left right
    have grouped := left.tight_emit.ofCond cond right.tight_emit
    refine ⟨Target.Expr.ofCond cond left.emit right.emit, Target.Expr.read?_text grouped, ?_⟩
    intro machine temps first second leftEvaluates rightEvaluates
    have leftMeans := means_emit lawful (fun _ _ => rfl) leftEvaluates
    have rightMeans := means_emit lawful (fun _ _ => rfl) rightEvaluates
    exact (leftMeans.ofCond rightMeans cond).eval_eq

/-- The byte `0x80` divided by minus one, and compared with it. -/
theorem emitted_text_means_signed_byte :
    let byte : Expr := .load .byte true (.imm 0)
    let quotient : Expr := .mulDiv .div byte (.imm Word.allOnes)
    let env : Target.Env :=
      .ofMachine .checked (Machine.ofMemory ⟨#[0x80]⟩) fun _ => some 0
    (∃ tree, Target.Expr.read? quotient.emit.text = some tree ∧
      tree.eval env = some (.ofWord 0x80)) ∧
    ∃ tree,
      Target.Expr.read? (Target.Expr.ofCond .lt byte.emit (imm Word.allOnes).emit).text =
        some tree ∧ tree.eval env = some (.ofBool true) := by
  have whole := emitted_text_means Target.Accessors.checked_lawful
  obtain ⟨quotient, quotientRead, quotientMeans⟩ :=
    whole.1 (.mulDiv .div (.load .byte true (.imm 0)) (.imm Word.allOnes))
  obtain ⟨test, testRead, testMeans⟩ := whole.2 .lt (.load .byte true (.imm 0)) (.imm Word.allOnes)
  exact ⟨⟨quotient, quotientRead, quotientMeans _ (fun _ => 0) _ rfl⟩,
    ⟨test, testRead, testMeans _ (fun _ => 0) 0xffffff80 Word.allOnes rfl rfl⟩⟩

end Expr

end RvLift
