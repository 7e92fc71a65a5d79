/-!
# Machine words

Every quantity of the guest machine is a 32-bit word: register values, addresses, immediates and
offsets. Arithmetic on them wraps. A signed quantity is a word read through `BitVec.toInt`.
-/

namespace RvLift

/-- A 32-bit guest word: an address, a register value or an immediate. -/
abbrev Word := BitVec 32

namespace Word

/-- The address of the word at position `index` of a region that starts at `base`; it wraps past
the top of the address space. -/
def address (base : Word) (index : Nat) : Word :=
  base + BitVec.ofNat 32 (4 * index)

/-- The word with every bit set, minus one in two's complement. -/
def allOnes : Word := BitVec.allOnes 32

/-- The least signed word. -/
def minSigned : Word := BitVec.intMin 32

end Word

end RvLift
