import DhcpServer.Lib.Tokens

/-!
# Bytes in hexadecimal

`%02x` and `%02X` of a byte, and `strtol` to base 16, which reads both back.
-/

namespace Lib
set_option autoImplicit false

/-- A digit of `%x`, or of `%X`. -/
def hexDigit (upper : Bool) (v : Nat) : Char := if upper then (Nat.digitChar v).toUpper else Nat.digitChar v

/-- `%02x` or `%02X` of a byte. -/
def hexByte (upper : Bool) (b : Byte) : List Char := [hexDigit upper (b.toNat / 16), hexDigit upper (b.toNat % 16)]

/-- Two digits for each byte, the highest first: `%08X` of four bytes. -/
def hexText (upper : Bool) (bs : List Byte) : List Char := bs.flatMap (hexByte upper)

/-- A prefix `0x` in front of a digit is read over. -/
def skipHexPrefix (cs : List Char) : List Char :=
  match cs with
  | '0' :: x :: h :: rest => if (x = 'x' || x = 'X') && isHexDigit h then h :: rest else cs
  | _ => cs

/-- `strtol(s, NULL, 16)`. -/
def strtolHex (cs : List Char) : Int :=
  let (sign, unsigned) := takeSign (cs.dropWhile isSpace)
  let digits := (skipHexPrefix unsigned).takeWhile isHexDigit
  clampLong (sign * ((digits.foldl (fun v c => 16 * v + hexValue c) 0 : Nat) : Int))

/-- The byte that two digits stand for. -/
def pairValue (h l : Char) : Byte := BitVec.ofNat 8 (16 * hexValue h + hexValue l)

/-- All digits. -/
def hexDigits : List Char := "0123456789abcdefABCDEF".toList

section Digits
variable {c h l : Char} {rest : List Char} {upper : Bool} {v : Nat}

/-- A character of a range is the first one's successor. -/
theorem ofNat_of_range {first size : Nat} (low : first ≤ c.toNat) (high : c.toNat < first + size) :
    ∃ k < size, c = Char.ofNat (first + k) := by
  refine ⟨c.toNat - first, by omega, ?_⟩
  rw [Nat.add_sub_cancel' low, Char.ofNat_toNat]

theorem mem_hexDigits (digit : isHexDigit c = true) : c ∈ hexDigits := by
  have digits : ∀ k < 10, Char.ofNat (48 + k) ∈ hexDigits := by decide
  have small : ∀ k < 6, Char.ofNat (97 + k) ∈ hexDigits := by decide
  have capital : ∀ k < 6, Char.ofNat (65 + k) ∈ hexDigits := by decide
  simp only [isHexDigit, Char.isDigit, Bool.or_eq_true, Bool.and_eq_true, decide_eq_true_eq, Char.le_def,
    ge_iff_le, UInt32.le_iff_toNat_le] at digit
  rcases digit with (⟨low, high⟩ | ⟨low, high⟩) | ⟨low, high⟩
  · obtain ⟨k, inside, rfl⟩ := @ofNat_of_range c 48 10 low (Nat.lt_succ_of_le high)
    exact digits k inside
  · obtain ⟨k, inside, rfl⟩ := @ofNat_of_range c 97 6 low (Nat.lt_succ_of_le high)
    exact small k inside
  · obtain ⟨k, inside, rfl⟩ := @ofNat_of_range c 65 6 low (Nat.lt_succ_of_le high)
    exact capital k inside

/-- What the digits have in common. -/
theorem hexDigits_value : ∀ c ∈ hexDigits, isHexDigit c = true ∧ hexValue c < 16 ∧
    hexDigit true (hexValue c) = c.toUpper := by
  have each : hexDigits.all (fun c => isHexDigit c && decide (hexValue c < 16) &&
      hexDigit true (hexValue c) == c.toUpper) = true := by decide
  intro c member
  simpa [and_assoc] using List.all_eq_true.mp each c member

theorem hexDigits_plain : ∀ c ∈ hexDigits, isSpace c = false ∧ c ∉ ['-', '+', 'x', 'X'] := by
  have each : hexDigits.all (fun c => !isSpace c && !(['-', '+', 'x', 'X'].contains c)) = true := by decide
  intro c member
  simpa using List.all_eq_true.mp each c member

theorem hexDigit_value (small : v < 16) : isHexDigit (hexDigit upper v) = true ∧ hexValue (hexDigit upper v) = v := by
  have each : ∀ upper, ∀ v < 16, isHexDigit (hexDigit upper v) = true ∧ hexValue (hexDigit upper v) = v := by decide
  exact each upper v small

/-- Only small letters are changed. -/
theorem toUpper_cases (c : Char) : c.toUpper = c ∨ ∃ k < 26, c = Char.ofNat (97 + k) := by
  unfold Char.toUpper
  split
  · rename_i lower
    exact Or.inr (@ofNat_of_range c 97 26 lower.1 (Nat.lt_succ_of_le lower.2))
  · exact Or.inl rfl

/-- A digit in capitals. -/
theorem isHexDigit_of_toUpper (digit : c.toUpper ∈ hexDigits) : isHexDigit c = true := by
  rcases toUpper_cases c with same | ⟨k, inside, rfl⟩
  · rw [same] at digit
    exact (hexDigits_value c digit).1
  · have letters : ∀ k < 26, (Char.ofNat (97 + k)).toUpper ∈ hexDigits → isHexDigit (Char.ofNat (97 + k)) = true := by
      decide
    exact letters k inside digit

theorem colon_of_toUpper (colon : c.toUpper = ':') : c = ':' := by
  rcases toUpper_cases c with same | ⟨k, inside, rfl⟩
  · exact same.symm.trans colon
  · have letters : ∀ k < 26, (Char.ofNat (97 + k)).toUpper ≠ ':' := by decide
    exact (letters k inside colon).elim

theorem hexValue_of_toUpper (small : v < 16) (digit : c.toUpper = hexDigit true v) :
    isHexDigit c = true ∧ hexValue c = v := by
  obtain ⟨hex, value⟩ := @hexDigit_value true v small
  have isHex : isHexDigit c = true := isHexDigit_of_toUpper (digit ▸ mem_hexDigits hex)
  obtain ⟨-, small', printed⟩ := hexDigits_value c (mem_hexDigits isHex)
  have value' := (@hexDigit_value true (hexValue c) small').2
  rw [printed, digit, value] at value'
  exact ⟨isHex, value'.symm⟩

/-- Two digits in front of something else. -/
theorem strtolHex_pair (high : isHexDigit h = true) (low : isHexDigit l = true)
    (ends : ∀ c ∈ rest.head?, isHexDigit c = false) :
    strtolHex (h :: l :: rest) = ((16 * hexValue h + hexValue l : Nat) : Int) := by
  obtain ⟨-, small, -⟩ := hexDigits_value h (mem_hexDigits high)
  obtain ⟨-, small', -⟩ := hexDigits_value l (mem_hexDigits low)
  obtain ⟨solid, plain⟩ := hexDigits_plain h (mem_hexDigits high)
  obtain ⟨-, plain'⟩ := hexDigits_plain l (mem_hexDigits low)
  simp only [List.mem_cons, not_or, List.not_mem_nil] at plain plain'
  have unsigned : takeSign (h :: l :: rest) = (1, h :: l :: rest) := by
    unfold takeSign
    split <;> simp_all
  have run : (h :: l :: rest).takeWhile isHexDigit = [h, l] := by
    rw [List.takeWhile_cons_of_pos high, List.takeWhile_cons_of_pos low]
    cases rest with
    | nil => rfl
    | cons c rest => rw [List.takeWhile_cons_of_neg (by simp [ends c rfl])]
  have unprefixed : skipHexPrefix (h :: l :: rest) = h :: l :: rest := by
    unfold skipHexPrefix
    split
    · rename_i x d rest' same
      cases same
      rw [if_neg (by simp [plain'])]
    · rfl
  have value : 16 * (16 * 0 + hexValue h) + hexValue l = 16 * hexValue h + hexValue l := by omega
  rw [strtolHex, List.dropWhile_cons_of_neg (by simp [solid]), unsigned]
  dsimp only
  rw [unprefixed, run, List.foldl_cons, List.foldl_cons, List.foldl_nil, value, Int.one_mul]
  exact clampLong_eq (by omega) (by omega)

/-- The digits of a byte stand for it. -/
theorem pairValue_hexByte (b : Byte) :
    pairValue (hexDigit upper (b.toNat / 16)) (hexDigit upper (b.toNat % 16)) = b := by
  have bound := b.isLt
  rw [pairValue, (hexDigit_value (by omega)).2, (hexDigit_value (by omega)).2, Nat.div_add_mod, BitVec.ofNat_toNat,
    BitVec.setWidth_eq]

theorem hexByte_injective : Function.Injective (hexByte upper) := by
  intro b b' same
  obtain ⟨high, low⟩ := List.cons.inj same
  rw [← @pairValue_hexByte upper b, high, (List.cons.inj low).1, pairValue_hexByte]

/-- The bytes are read back. -/
theorem hexText_injective : Function.Injective (hexText upper) := by
  intro bs bs' same
  induction bs generalizing bs' with
  | nil =>
    cases bs' with
    | nil => rfl
    | cons b' bs' => cases same
  | cons b bs ih =>
    cases bs' with
    | nil => cases same
    | cons b' bs' =>
      rw [hexText, hexText, List.flatMap_cons, List.flatMap_cons] at same
      obtain ⟨here, others⟩ := List.append_inj same rfl
      rw [hexByte_injective here, ih others]

end Digits

end Lib
