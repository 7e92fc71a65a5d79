/-!
# UTF-8

Characters as sequences of one to four bytes. A lead byte promises how many bytes follow it and
limits the first of them, so that every character has one spelling and surrogates have none. Where
the bytes break a promise, those that kept it stand together for one unreadable character, and
reading goes on with the byte that broke it.
-/

namespace RvLift.Text

/-- What the first byte of a character promises. -/
structure Lead where
  /-- The highest bits of the character. -/
  bits : Nat
  /-- The number of bytes that follow. -/
  count : Nat
  /-- The least byte that may follow first. -/
  low : Nat := 0x80
  /-- The greatest byte that may follow first. -/
  high : Nat := 0xbf
  deriving DecidableEq, Repr

/-- The promise of a byte that can start a character. -/
def lead? (byte : Nat) : Option Lead :=
  if byte ≤ 0x7f then some { bits := byte, count := 0 }
  else if 0xc2 ≤ byte ∧ byte ≤ 0xdf then some { bits := byte - 0xc0, count := 1 }
  else if byte = 0xe0 then some { bits := 0, count := 2, low := 0xa0 }
  else if byte = 0xed then some { bits := 0xd, count := 2, high := 0x9f }
  else if 0xe1 ≤ byte ∧ byte ≤ 0xef then some { bits := byte - 0xe0, count := 2 }
  else if byte = 0xf0 then some { bits := 0, count := 3, low := 0x90 }
  else if byte = 0xf4 then some { bits := 4, count := 3, high := 0x8f }
  else if 0xf1 ≤ byte ∧ byte ≤ 0xf3 then some { bits := byte - 0xf0, count := 3 }
  else none

/-- Complete a character whose bits so far are `value` with `count` bytes, the first of them
between `low` and `high`. The result has no character if a byte is missing or another one, and
the bytes behind those that were taken. -/
def complete (value : Nat) : (count low high : Nat) → List UInt8 → Option Char × List UInt8
  | 0, _, _, bytes => (some (Char.ofNat value), bytes)
  | _ + 1, _, _, [] => (none, [])
  | count + 1, low, high, byte :: bytes =>
    if low ≤ byte.toNat ∧ byte.toNat ≤ high then
      complete (64 * value + byte.toNat % 64) count 0x80 0xbf bytes
    else (none, byte :: bytes)

/-- Completing a character takes bytes from the front only. -/
theorem length_complete_le (value count low high : Nat) (bytes : List UInt8) :
    (complete value count low high bytes).2.length ≤ bytes.length := by
  induction bytes generalizing value count low high with
  | nil => cases count <;> simp [complete]
  | cons byte bytes ih =>
    cases count with
    | zero => simp [complete]
    | succ count =>
      unfold complete
      split
      · exact Nat.le_succ_of_le (ih ..)
      · exact Nat.le_refl _

/-- The characters of a byte sequence; `none` stands for bytes that are no character. -/
def characters : List UInt8 → List (Option Char)
  | [] => []
  | byte :: bytes =>
    match lead? byte.toNat with
    | none => none :: characters bytes
    | some lead =>
      let next := complete lead.bits lead.count lead.low lead.high bytes
      next.1 :: characters next.2
termination_by bytes => bytes.length
decreasing_by
  · simp
  · exact Nat.lt_succ_of_le (length_complete_le ..)

/-- Whether a byte sequence is UTF-8 text. -/
def isUtf8 (bytes : List UInt8) : Bool := (characters bytes).all Option.isSome

/-- The text of a byte sequence, with a replacement character for bytes that are no character. -/
def readable (bytes : ByteArray) : String :=
  match String.fromUTF8? bytes with
  | some text => text
  | none => String.ofList ((characters bytes.toList).map (·.getD '\ufffd'))

end RvLift.Text
