import RvLift.Text.Digits

/-!
# Integer registers

The 32 registers `x0` to `x31`. Register `x0` reads as zero and ignores writes.
-/

namespace RvLift

/-- An integer register, named by its five-bit number. -/
structure Reg where
  /-- The register number. -/
  number : BitVec 5
  deriving DecidableEq, Repr

namespace Reg

/-- The register whose reads are zero and whose writes are dropped. -/
def zero : Reg := ⟨0⟩

/-- The register numbered by the five low bits of a number. -/
def ofNat (number : Nat) : Reg := ⟨BitVec.ofNat 5 number⟩

/-- The register number as a natural number below 32. -/
def index (reg : Reg) : Nat := reg.number.toNat

/-- Register numbers are below 32. -/
theorem index_lt (reg : Reg) : reg.index < 32 := reg.number.isLt

/-- A register is determined by its number. -/
@[simp] theorem ofNat_index (reg : Reg) : ofNat reg.index = reg := by
  cases reg
  simp [ofNat, index]

/-- The assembly name, `x` and the number. -/
def text (reg : Reg) : String := "x" ++ Text.decimal reg.index

end Reg

end RvLift
