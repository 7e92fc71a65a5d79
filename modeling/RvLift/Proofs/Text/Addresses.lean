import Mathlib
import RvLift.Proofs.Text.Digits
import RvLift.Word

/-!
# Written addresses

The grammar of addresses, and that reading takes exactly the texts of the grammar. Without its
underscores an address is one or more digits, decimal ones or hexadecimal ones of either case behind
`0x` or `0X`, with at most one plus sign in front of them. Its value is that of the digits, however
many zeros they begin with; a value that does not fit 32 bits is refused and never wraps.
-/

namespace RvLift.Text

/-- Whether a character is a digit of a base up to sixteen: a figure, or a letter of either case. -/
def IsDigit (radix digit : Nat) (character : Char) : Prop :=
  digit < radix ∧ (character = digit.digitChar ∨ character = digit.digitChar.toUpper)

/-- Whether characters are digits of a base, the most significant one first, with a value. -/
def HasValue (radix value : Nat) (characters : List Char) : Prop :=
  ∃ digits, List.Forall₂ (IsDigit radix) digits characters ∧
    value = Nat.ofDigits radix digits.reverse

/-- Whether characters are a numeral with a value: one or more digits, behind a plus sign or
not. -/
inductive IsNumeral (radix value : Nat) : List Char → Prop where
  /-- Digits only. -/
  | bare {digits : List Char} (nonempty : digits ≠ []) (valued : HasValue radix value digits) :
    IsNumeral radix value digits
  /-- Digits behind a plus sign. -/
  | plus {digits : List Char} (nonempty : digits ≠ []) (valued : HasValue radix value digits) :
    IsNumeral radix value ('+' :: digits)

/-- Whether characters are an address with a value, without underscores. -/
inductive IsAddress (value : Nat) : List Char → Prop where
  /-- A decimal numeral. -/
  | decimal {numeral : List Char} (valued : IsNumeral 10 value numeral) : IsAddress value numeral
  /-- A hexadecimal numeral behind `0x`. -/
  | lower {numeral : List Char} (valued : IsNumeral 16 value numeral) :
    IsAddress value ('0' :: 'x' :: numeral)
  /-- A hexadecimal numeral behind `0X`. -/
  | upper {numeral : List Char} (valued : IsNumeral 16 value numeral) :
    IsAddress value ('0' :: 'X' :: numeral)

/-- The number that digits of a base spell behind a number. -/
def continued? (radix start : Nat) (characters : List Char) : Option Nat :=
  characters.foldlM (fun value character => (digit? radix character).map (value * radix + ·)) start

/-- The characters of a text that are not underscores. -/
def significant (text : String) : List Char := text.toList.filter (· ≠ '_')

/-- Whether a character is a lower-case digit, or the same in upper case. -/
def InEitherCase (written digit : Char) : Prop := written = digit ∨ written = digit.toUpper

section Digits

variable {radix : Nat}

/-- Only ASCII characters have a value as digits or letters. -/
theorem toNat_lt_of_digitValue? {character : Char} {digit : Nat}
    (value : digitValue? character = some digit) : character.toNat < 128 := by
  by_contra large
  have figures : ¬character ≤ '9' := fun small => large (lt_of_le_of_lt small (by decide))
  have lower : ¬character ≤ 'z' := fun small => large (lt_of_le_of_lt small (by decide))
  have upper : ¬character ≤ 'Z' := fun small => large (lt_of_le_of_lt small (by decide))
  simp [digitValue?, figures, lower, upper] at value

/-- The characters that are read as a digit are those of the digit. -/
theorem digit?_eq_some_iff (bound : radix ≤ 16) {character : Char} {digit : Nat} :
    digit? radix character = some digit ↔ IsDigit radix digit character := by
  have written : ∀ digit < 16, digitValue? digit.digitChar = some digit ∧
      digitValue? digit.digitChar.toUpper = some digit := by decide
  have ascii : ∀ code < 128, ∀ digit ∈ digitValue? (Char.ofNat code), digit < 16 →
      Char.ofNat code = digit.digitChar ∨ Char.ofNat code = digit.digitChar.toUpper := by decide
  rw [digit?, Option.filter_eq_some_iff]
  constructor
  · rintro ⟨value, small⟩
    have below : digit < radix := of_decide_eq_true small
    have code := ascii character.toNat (toNat_lt_of_digitValue? value) digit
    rw [Char.ofNat_toNat] at code
    exact ⟨below, code value (by omega)⟩
  · rintro ⟨below, rfl | rfl⟩
    · exact ⟨(written digit (by omega)).1, decide_eq_true below⟩
    · exact ⟨(written digit (by omega)).2, decide_eq_true below⟩

/-- The number that characters spell behind a number has its digits behind those of the number. -/
theorem continued?_eq_some_iff (base : radix ≤ 16) {start number : Nat} {characters : List Char} :
    continued? radix start characters = some number ↔
      ∃ digits, List.Forall₂ (IsDigit radix) digits characters ∧
        number = start * radix ^ digits.length + Nat.ofDigits radix digits.reverse := by
  induction characters generalizing start with
  | nil => simp [continued?, eq_comm]
  | cons character rest hypothesis =>
    -- The first digit stands before the others, whatever number they are read behind.
    have shifted (digit : Nat) (digits : List Nat) :
        start * radix ^ (digit :: digits).length + Nat.ofDigits radix (digit :: digits).reverse =
          (start * radix + digit) * radix ^ digits.length +
            Nat.ofDigits radix digits.reverse := by
      rw [List.reverse_cons, Nat.ofDigits_append, Nat.ofDigits_singleton, List.length_cons,
        List.length_reverse]
      ring
    have step : continued? radix start (character :: rest) =
        (digit? radix character).bind fun digit =>
          continued? radix (start * radix + digit) rest := by
      rw [continued?, List.foldlM_cons]
      cases digit? radix character <;> rfl
    rw [step, Option.bind_eq_some_iff]
    simp only [List.forall₂_cons_right_iff, hypothesis, digit?_eq_some_iff base]
    constructor
    · rintro ⟨digit, isDigit, digits, all, sum⟩
      exact ⟨digit :: digits, ⟨digit, digits, isDigit, all, rfl⟩, sum.trans (shifted ..).symm⟩
    · rintro ⟨_, ⟨digit, digits, isDigit, all, rfl⟩, sum⟩
      exact ⟨digit, isDigit, digits, all, sum.trans (shifted ..)⟩

/-- Characters have the value that they spell. -/
theorem value?_eq_some_iff (base : radix ≤ 16) {value : Nat} {characters : List Char} :
    value? radix characters = some value ↔ HasValue radix value characters := by
  have same : value? radix characters = continued? radix 0 characters := rfl
  simp only [same, continued?_eq_some_iff base, HasValue, zero_mul, zero_add]

/-- Reading digits on from a number succeeds exactly if all characters are digits and the number
that they spell behind it lies below the bound. -/
theorem readDigits_eq_ok_iff (positive : 0 < radix) (base : radix ≤ 16)
    {bound start number : Nat} {characters : List Char} (within : start < bound) :
    readDigits radix bound start characters = .ok number ↔
      continued? radix start characters = some number ∧ number < bound := by
  induction characters generalizing start with
  | nil =>
    simp only [readDigits, continued?, List.foldlM_nil, Except.ok.injEq, Option.pure_def,
      Option.some.injEq]
    constructor
    · rintro rfl
      exact ⟨rfl, within⟩
    · exact fun both => both.1
  | cons character rest hypothesis =>
    rw [readDigits, continued?, List.foldlM_cons]
    cases digit? radix character with
    | none => simp
    | some digit =>
      change _ ↔ continued? radix (start * radix + digit) rest = some number ∧ _
      by_cases fits : start * radix + digit < bound
      · simp only [fits, if_true]
        exact hypothesis fits
      · simp only [fits, if_false]
        refine ⟨nofun, ?_⟩
        rintro ⟨spelled, small⟩
        -- Digits behind a number only make it larger.
        obtain ⟨digits, -, sum⟩ := (continued?_eq_some_iff base).1 spelled
        have grows : start * radix + digit ≤ (start * radix + digit) * radix ^ digits.length :=
          Nat.le_mul_of_pos_right _ (Nat.pow_pos positive)
        omega

/-- Digits keep their value in either case. -/
theorem HasValue.inEitherCase (base : radix ≤ 16) {value : Nat} {digits written : List Char}
    (valued : HasValue radix value digits) (cases : List.Forall₂ InEitherCase written digits) :
    HasValue radix value written := by
  have raised : ∀ digit < 16, digit.digitChar.toUpper.toUpper = digit.digitChar.toUpper := by
    decide
  obtain ⟨numbers, all, sum⟩ := valued
  refine ⟨numbers, ?_, sum⟩
  clear sum
  induction all generalizing written with
  | nil =>
    cases cases
    exact .nil
  | @cons number character numbers characters isDigit _ hypothesis =>
    cases cases with
    | @cons letter _ letters _ either rest =>
      refine .cons ⟨isDigit.1, ?_⟩ (hypothesis rest)
      have idempotent := raised number (isDigit.1.trans_le base)
      obtain ⟨-, rfl | rfl⟩ := isDigit
      · exact either
      · rw [InEitherCase, idempotent, or_self] at either
        exact .inr either

/-- A padded numeral has a digit. -/
theorem padded_ne_nil (large : 1 < radix) (width number : Nat) :
    (padded radix width number).toList ≠ [] := by
  obtain ⟨digit, -, rest, digits, -⟩ := exists_toDigits_eq_cons large number
  rw [padded, String.toList_ofList, List.leftpad, digits]
  simp

/-- Padded numerals have the value of their number. -/
theorem hasValue_padded (large : 1 < radix) (base : radix ≤ 16) (width number : Nat) :
    HasValue radix number (padded radix width number).toList :=
  (value?_eq_some_iff base).1 (value?_padded large base width number)

/-- Only digits have a value. -/
theorem HasValue.not_mem (base : radix ≤ 16) {value : Nat} {digits : List Char}
    (valued : HasValue radix value digits) {foreign : Char} (none : digit? radix foreign = none) :
    foreign ∉ digits := by
  intro member
  obtain ⟨numbers, all, -⟩ := valued
  obtain ⟨place, inside, found⟩ := List.mem_iff_getElem.1 member
  have isDigit := all.get (all.length_eq ▸ inside) inside
  have read := (digit?_eq_some_iff base).2 isDigit
  rw [List.get_eq_getElem, found, none] at read
  cases read

end Digits

section Reading

variable {value : Nat} {characters : List Char}

/-- Reading a numeral succeeds exactly with the value of one that lies below the bound. -/
theorem readNumeral_eq_ok_iff {radix : Nat} (positive : 0 < radix) (base : radix ≤ 16)
    {bound : Nat} (room : 0 < bound) :
    readNumeral radix bound characters = .ok value ↔
      IsNumeral radix value characters ∧ value < bound := by
  have digits {characters : List Char} : readDigits radix bound 0 characters = .ok value ↔
      HasValue radix value characters ∧ value < bound := by
    rw [readDigits_eq_ok_iff positive base room, ← value?_eq_some_iff base]
    rfl
  constructor
  · intro read
    unfold readNumeral at read
    split at read
    · cases read
    · cases read
    · rename_i lone
      obtain ⟨valued, small⟩ := digits.1 read
      exact ⟨.plus lone valued, small⟩
    · rename_i nonempty _ _
      obtain ⟨valued, small⟩ := digits.1 read
      exact ⟨.bare nonempty valued, small⟩
  · rintro ⟨numeral, small⟩
    cases numeral with
    | bare nonempty valued =>
      have signless : ∀ rest, characters ≠ '+' :: rest := by
        rintro rest rfl
        exact valued.not_mem base rfl (List.mem_cons_self ..)
      rw [readNumeral.eq_4 _ _ _ nonempty (signless []) signless]
      exact digits.2 ⟨valued, small⟩
    | plus nonempty valued =>
      rw [readNumeral.eq_3 _ _ _ nonempty]
      exact digits.2 ⟨valued, small⟩

/-- Letters that announce a hexadecimal numeral do not occur in decimal ones. -/
theorem IsNumeral.not_mem_opening (numeral : IsNumeral 10 value characters) {letter : Char}
    (opening : letter = 'x' ∨ letter = 'X') : letter ∉ characters := by
  have foreign : digit? 10 letter = none := by rcases opening with rfl | rfl <;> rfl
  have sign : letter ≠ '+' := by rcases opening with rfl | rfl <;> decide
  cases numeral with
  | bare _ valued => exact valued.not_mem (by decide) foreign
  | plus _ valued =>
    rw [List.mem_cons, not_or]
    exact ⟨sign, valued.not_mem (by decide) foreign⟩

/-- Reading the characters of an address succeeds exactly with its value, if that fits 32 bits. -/
theorem readAddressDigits_eq_ok_iff :
    readAddressDigits characters = .ok value ↔ IsAddress value characters ∧ value < 2 ^ 32 := by
  have hexadecimal {numeral : List Char} : readNumeral 16 0x100000000 numeral = .ok value ↔
      IsNumeral 16 value numeral ∧ value < 2 ^ 32 :=
    readNumeral_eq_ok_iff (by decide) (by decide) (by decide)
  have decimal : readNumeral 10 0x100000000 characters = .ok value ↔
      IsNumeral 10 value characters ∧ value < 2 ^ 32 :=
    readNumeral_eq_ok_iff (by decide) (by decide) (by decide)
  constructor
  · intro read
    unfold readAddressDigits at read
    split at read
    · exact (hexadecimal.1 read).imp_left .lower
    · exact (hexadecimal.1 read).imp_left .upper
    · exact (decimal.1 read).imp_left .decimal
  · rintro ⟨address, small⟩
    cases address with
    | decimal numeral =>
      rw [readAddressDigits.eq_3]
      · exact decimal.2 ⟨numeral, small⟩
      · rintro rest rfl
        exact numeral.not_mem_opening (.inl rfl) (by simp)
      · rintro rest rfl
        exact numeral.not_mem_opening (.inr rfl) (by simp)
    | lower numeral => exact hexadecimal.2 ⟨numeral, small⟩
    | upper numeral => exact hexadecimal.2 ⟨numeral, small⟩

/-- An address is read from what its text is without underscores. -/
theorem readAddress_eq (text : String) :
    readAddress text =
      match readAddressDigits (significant text) with
      | .ok value => .ok (BitVec.ofNat 32 value)
      | .error reason => .error ⟨String.ofList (significant text), reason⟩ := rfl

/-- A text is read as an address exactly if it is one without its underscores. -/
theorem readAddress_eq_ok_iff {text : String} {address : Word} :
    readAddress text = .ok address ↔ IsAddress address.toNat (significant text) := by
  have value {value : Nat} : readAddressDigits (significant text) = .ok value ↔
      IsAddress value (significant text) ∧ value < 2 ^ 32 := readAddressDigits_eq_ok_iff
  rw [readAddress_eq]
  constructor
  · intro read
    cases digits : readAddressDigits (significant text) with
    | error reason => simp [digits] at read
    | ok number =>
      obtain ⟨written, small⟩ := value.1 digits
      obtain rfl : BitVec.ofNat 32 number = address := by simpa [digits] using read
      rwa [BitVec.toNat_ofNat, Nat.mod_eq_of_lt small]
  · intro written
    rw [value.2 ⟨written, address.isLt⟩]
    simp

/-- A text that is not read is refused with what it is without its underscores. -/
theorem readAddress_eq_error {text : String}
    (refused : ∀ address : Word, ¬IsAddress address.toNat (significant text)) :
    ∃ reason, readAddress text = .error ⟨String.ofList (significant text), reason⟩ := by
  cases read : readAddress text with
  | ok address => exact absurd (readAddress_eq_ok_iff.1 read) (refused address)
  | error error =>
    rw [readAddress_eq] at read
    split at read
    · cases read
    · rename_i reason _
      cases read
      exact ⟨reason, rfl⟩

end Reading

/-- Addresses are read exactly by their grammar and with their exact values. A text is read as an
address if and only if it is one without its underscores; every other text is refused, and named
without its underscores. So the decimal numeral of a word, and its hexadecimal numeral behind `0x`
or `0X` with digits of either case, are read as that word, with any zeros in front and underscores
anywhere. A size is read from every text as an address is. -/
theorem readAddress_exact :
    (∀ (text : String) (address : Word),
      readAddress text = .ok address ↔ IsAddress address.toNat (significant text)) ∧
    (∀ text : String, (∀ address : Word, ¬IsAddress address.toNat (significant text)) →
      ∃ reason, readAddress text = .error ⟨String.ofList (significant text), reason⟩) ∧
    (∀ (address : Word) (width : Nat) (text : String),
      significant text = (padded 10 width address.toNat).toList →
      readAddress text = .ok address) ∧
    (∀ (address : Word) (width : Nat) (text opening : String) (digits : List Char),
      opening = "0x" ∨ opening = "0X" →
      List.Forall₂ InEitherCase digits (padded 16 width address.toNat).toList →
      significant text = opening.toList ++ digits → readAddress text = .ok address) ∧
    ∀ text : String, readSize text = (readAddress text).map BitVec.toNat := by
  refine ⟨fun text address => readAddress_eq_ok_iff, fun text => readAddress_eq_error,
    fun address width text whole => ?_,
    fun address width text opening digits opens cased whole => ?_, fun text => rfl⟩
  · have valued := hasValue_padded (by decide : 1 < 10) (by decide) width address.toNat
    rw [readAddress_eq_ok_iff, whole]
    exact .decimal (.bare (padded_ne_nil (by decide) width address.toNat) valued)
  · have valued := hasValue_padded (by decide : 1 < 16) (by decide) width address.toNat
    have numeral : IsNumeral 16 address.toNat digits := by
      refine .bare (fun none => ?_) (valued.inEitherCase (by decide) cased)
      rw [none, List.forall₂_nil_left_iff] at cased
      exact padded_ne_nil (by decide) _ _ cased
    rw [readAddress_eq_ok_iff, whole]
    rcases opens with rfl | rfl
    · exact .lower numeral
    · exact .upper numeral

/-- An underscore parts the opening of a hexadecimal numeral with digits of both cases, others stand
around a decimal numeral, and a numeral one too large is refused. -/
theorem readAddress_exact_parted :
    significant "0_X8000_00aF" = "0X".toList ++ "800000aF".toList ∧
      readAddress "0_X8000_00aF" = .ok 0x800000af ∧
      significant "_00_4294967295_" = (padded 10 12 4294967295).toList ∧
      readAddress "_00_4294967295_" = .ok 0xffffffff ∧
      (∀ address : Word, ¬IsAddress address.toNat (significant "4294967296")) ∧
      ∃ reason, readAddress "4294967296" = .error ⟨"4294967296", reason⟩ := by
  obtain ⟨exactly, refuses, decimal, hexadecimal, -⟩ := readAddress_exact
  have opened : significant "0_X8000_00aF" = "0X".toList ++ "800000aF".toList := by decide
  have cased : List.Forall₂ InEitherCase "800000aF".toList (padded 16 0 0x800000af).toList := by
    have spelled : (padded 16 0 0x800000af).toList = "800000af".toList := by decide
    rw [spelled]
    simp [InEitherCase]
  have zeros : significant "_00_4294967295_" = (padded 10 12 4294967295).toList := by decide
  have refused (address : Word) : ¬IsAddress address.toNat (significant "4294967296") := by
    intro written
    have read := (exactly "4294967296" address).2 written
    have fails : readAddress "4294967296" = .error ⟨"4294967296", .overflow⟩ := by decide
    rw [fails] at read
    cases read
  exact ⟨opened, hexadecimal 0x800000af 0 _ "0X" _ (.inr rfl) cased opened, zeros,
    decimal 0xffffffff 12 _ zeros, refused, refuses _ refused⟩

end RvLift.Text
