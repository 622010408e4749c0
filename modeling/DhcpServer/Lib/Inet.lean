import DhcpServer.Lib.Memory
import DhcpServer.Lib.Scanf

/-!
# Internet addresses in text

`inet_aton` and `inet_addr` as the C library has them: one to four numbers, decimal, octal or
hexadecimal, the last one filling the bytes that are left, and nothing but white space behind.
`quad` is the usual way to write an address.
-/

namespace Lib
set_option autoImplicit false

/-! ## Numbers -/

def isOctalDigit (c : Char) : Bool := '0' ≤ c && c ≤ '7'

def isHexDigit (c : Char) : Bool := c.isDigit || ('a' ≤ c && c ≤ 'f') || ('A' ≤ c && c ≤ 'F')

def hexValue (c : Char) : Nat := if c.isDigit then c.toNat - '0'.toNat else c.toLower.toNat - 'a'.toNat + 10

/-- `strtoul` to base zero, at a digit: the base is told by the prefix. -/
def strtoul (cs : List Char) : Nat × List Char :=
  match cs with
  | '0' :: x :: h :: rest =>
    if (x = 'x' || x = 'X') && isHexDigit h then
      (((h :: rest).takeWhile isHexDigit).foldl (fun v c => 16 * v + hexValue c) 0, (h :: rest).dropWhile isHexDigit)
    else
      (Nat.ofDigitChars 8 (cs.takeWhile isOctalDigit) 0, cs.dropWhile isOctalDigit)
  | '0' :: _ => (Nat.ofDigitChars 8 (cs.takeWhile isOctalDigit) 0, cs.dropWhile isOctalDigit)
  | _ => (Nat.ofDigitChars 10 (cs.takeWhile Char.isDigit) 0, cs.dropWhile Char.isDigit)

/-! ## Addresses -/

/-- The numbers of an address: those followed by a dot, the last one, and what follows it. At most
`room` dots may come. -/
def inetNumbers (room : Nat) (parts : List Nat) (cs : List Char) : Option (List Nat × Nat × List Char) :=
  if (cs.head?.any Char.isDigit) then
    let (val, rest) := strtoul cs
    if val > 0xFFFFFFFF then
      none
    else
      match rest, room with
      | '.' :: rest, room + 1 => if val > 0xFF then none else inetNumbers room (parts ++ [val]) rest
      | '.' :: _, 0 => none
      | _, _ => some (parts, val, rest)
  else
    none

/-- How large the last number may be behind `k` others. -/
def inetMax (k : Nat) : Nat := [0xFFFFFFFF, 0xFFFFFF, 0xFFFF, 0xFF].getD k 0

/-- The others are the high bytes. -/
def inetWord : Nat → List Nat → Nat → Nat
  | _, [], last => last
  | unit, p :: parts, last => p * unit + inetWord (unit / 256) parts last

/-- `inet_aton`; the address in host order. -/
def inetAton (cs : List Char) : Option (BitVec 32) :=
  match inetNumbers 3 [] cs with
  | none => none
  | some (parts, last, rest) =>
    if rest.head?.all isSpace && last ≤ inetMax parts.length then
      some (BitVec.ofNat 32 (inetWord 0x1000000 parts last))
    else
      none

/-- `inet_addr`: the address in network order, or `INADDR_NONE`. -/
def inetAddr (cs : List Char) : BitVec 32 :=
  match inetAton cs with
  | some a => htonl a
  | none => 0xFFFFFFFF#32

/-- An address as four decimal numbers. -/
def quad (a : BitVec 32) : List Char :=
  ['.'].intercalate ((be32 a).map fun octet => Nat.toDigits 10 octet.toNat)

example : inetAddr "192.168.1.1".toList = htonl 0xC0A80101#32 ∧ inetAddr "0300.0xa8.257".toList = htonl 0xC0A80101#32 ∧
    inetAddr "192.168.1.1;".toList = 0xFFFFFFFF#32 := by decide +kernel

section Numbers
variable {rest cs : List Char} {n room : Nat} {parts : List Nat}

/-- Decimal digits do not start with a zero, but for zero itself. -/
theorem head_toDigits {n : Nat} (positive : 0 < n) : (Nat.toDigits 10 n).head? ≠ some '0' := by
  induction n using Nat.strongRecOn with
  | ind n ih =>
    by_cases small : n < 10
    · rw [Nat.toDigits_of_lt_base small]
      intro zero
      have digit : n.digitChar = '0' := Option.some.inj zero
      rw [Nat.digitChar_eq_zero] at digit
      omega
    · rw [Nat.toDigits_of_base_le (by decide) (by omega), List.head?_append]
      obtain ⟨d, ds, split, -⟩ := toDigits_cons (n / 10)
      have first := ih (n / 10) (by omega) (by omega)
      rw [split] at first ⊢
      exact first

theorem isDigit_of_isOctalDigit {c : Char} (octal : isOctalDigit c = true) : c.isDigit = true := by
  have seven : '7'.val.toNat ≤ '9'.val.toNat := by decide
  simp only [isOctalDigit, Bool.and_eq_true, decide_eq_true_eq, Char.le_def, UInt32.le_iff_toNat_le] at octal
  simp only [Char.isDigit, Bool.and_eq_true, decide_eq_true_eq, ge_iff_le, UInt32.le_iff_toNat_le]
  exact ⟨octal.1, Nat.le_trans octal.2 seven⟩

/-- What may follow a number without being read as part of it. -/
def EndsNumber (rest : List Char) : Prop := ∀ c ∈ rest.head?, c.isDigit = false ∧ c ≠ 'x' ∧ c ≠ 'X'

/-- A zero alone is octal. -/
theorem strtoul_zero (ends : EndsNumber rest) : strtoul ('0' :: rest) = (0, rest) := by
  have octal : ('0' :: rest).takeWhile isOctalDigit = ['0'] ∧ ('0' :: rest).dropWhile isOctalDigit = rest := by
    rw [List.takeWhile_cons_of_pos (by decide), List.dropWhile_cons_of_pos (by decide)]
    cases rest with
    | nil => exact ⟨rfl, rfl⟩
    | cons c rest =>
      have stop : ¬ isOctalDigit c = true := by
        intro octal
        have digit := (ends c rfl).1
        rw [isDigit_of_isOctalDigit octal] at digit
        cases digit
      rw [List.takeWhile_cons_of_neg stop, List.dropWhile_cons_of_neg stop]
      exact ⟨rfl, rfl⟩
  unfold strtoul
  split
  · rename_i x h rest' same
    obtain ⟨-, rfl⟩ := List.cons.inj same
    obtain ⟨-, small, large⟩ := ends x rfl
    rw [if_neg (by simp [small, large]), octal.1, octal.2]
    rfl
  · rw [octal.1, octal.2]
    rfl
  · rename_i other
    exact absurd rfl (other rest)

/-- A decimal number is read back. -/
theorem strtoul_toDigits (ends : EndsNumber rest) : strtoul (Nat.toDigits 10 n ++ rest) = (n, rest) := by
  by_cases positive : 0 < n
  · obtain ⟨taken, dropped⟩ := @takeWhile_toDigits rest n fun c member => (ends c member).1
    have first := head_toDigits positive
    obtain ⟨d, ds, digits, -⟩ := toDigits_cons n
    have value : Nat.ofDigitChars 10 (Nat.toDigits 10 n) 0 = n := Nat.ofDigitChars_ten_toDigits
    rw [digits] at taken dropped first value ⊢
    have nonzero : d ≠ '0' := fun zero => first (congrArg some zero)
    unfold strtoul
    split
    · rename_i same
      exact absurd (List.cons.inj same).1 nonzero
    · rename_i same
      exact absurd (List.cons.inj same).1 nonzero
    · rw [taken, dropped, value]
  · obtain rfl : n = 0 := by omega
    exact strtoul_zero ends

/-! ## Quads -/

/-- A number and a dot. -/
theorem inetNumbers_dot (byte : n ≤ 0xFF) : inetNumbers (room + 1) parts (Nat.toDigits 10 n ++ '.' :: cs) =
    inetNumbers room (parts ++ [n]) cs := by
  have number : strtoul (Nat.toDigits 10 n ++ '.' :: cs) = (n, '.' :: cs) := by
    apply strtoul_toDigits
    rintro c ⟨⟩
    exact ⟨rfl, by decide, by decide⟩
  obtain ⟨d, ds, digits, digit⟩ := toDigits_cons n
  rw [inetNumbers, number, if_pos (by rw [digits]; exact digit)]
  simp only
  rw [if_neg (by omega), if_neg (by omega)]

/-- The last number. -/
theorem inetNumbers_last (word : n ≤ 0xFFFFFFFF) (ends : EndsNumber rest) (undotted : '.' ∉ rest.head?) :
    inetNumbers room parts (Nat.toDigits 10 n ++ rest) = some (parts, n, rest) := by
  have number := @strtoul_toDigits rest n ends
  obtain ⟨d, ds, digits, digit⟩ := toDigits_cons n
  unfold inetNumbers
  rw [number, if_pos (by rw [digits]; exact digit)]
  simp only
  rw [if_neg (by omega)]
  split
  · exact absurd rfl undotted
  · exact absurd rfl undotted
  · rfl

/-- The four bytes of an address add up to it. -/
theorem inetWord_octets (a : BitVec 32) : inetWord 0x1000000
    [(a.extractLsb' 24 8).toNat, (a.extractLsb' 16 8).toNat, (a.extractLsb' 8 8).toNat]
    (a.extractLsb' 0 8).toNat = a.toNat := by
  have bound := a.isLt
  simp only [inetWord, BitVec.extractLsb'_toNat, Nat.shiftRight_eq_div_pow]
  omega

theorem quad_eq (a : BitVec 32) : quad a = Nat.toDigits 10 (a.extractLsb' 24 8).toNat ++
    '.' :: (Nat.toDigits 10 (a.extractLsb' 16 8).toNat ++ '.' :: (Nat.toDigits 10 (a.extractLsb' 8 8).toNat ++
      '.' :: Nat.toDigits 10 (a.extractLsb' 0 8).toNat)) := by
  simp [quad, be32, List.intercalate]

/-- **A quad is read back** if white space or nothing follows, and rejected if anything else does. -/
theorem inetAton_quad {a : BitVec 32} (ends : EndsNumber rest) (undotted : '.' ∉ rest.head?) :
    inetAton (quad a ++ rest) = if rest.head?.all isSpace then some a else none := by
  have octet : ∀ k, (a.extractLsb' k 8).toNat ≤ 0xFF := fun k => Nat.le_of_lt_succ (a.extractLsb' k 8).isLt
  have numbers : inetNumbers 3 [] (quad a ++ rest) = some ([(a.extractLsb' 24 8).toNat,
      (a.extractLsb' 16 8).toNat, (a.extractLsb' 8 8).toNat], (a.extractLsb' 0 8).toNat, rest) := by
    simp only [quad_eq, List.append_assoc, List.cons_append]
    rw [inetNumbers_dot (octet 24), inetNumbers_dot (octet 16), inetNumbers_dot (octet 8),
      inetNumbers_last (Nat.le_trans (octet 0) (by decide)) ends undotted]
    rfl
  have fits : decide ((a.extractLsb' 0 8).toNat ≤ inetMax 3) = true := decide_eq_true (octet 0)
  rw [inetAton, numbers]
  simp only [List.length_cons, List.length_nil, fits, Bool.and_true, inetWord_octets, BitVec.ofNat_toNat,
    BitVec.setWidth_eq]

theorem inetAton_quad_alone (a : BitVec 32) : inetAton (quad a) = some a := by
  have read := @inetAton_quad [] a (by rintro c ⟨⟩) (by simp)
  rwa [List.append_nil] at read

theorem inetAddr_quad (a : BitVec 32) : ntohl (inetAddr (quad a)) = a := by
  rw [inetAddr, inetAton_quad_alone]
  exact ntohl_htonl a

/-- A quad that is followed by a character of another kind is not an address. -/
theorem inetAddr_quad_mark {a : BitVec 32} {c : Char} (mark : c = ';' ∨ c = ',') :
    ntohl (inetAddr (quad a ++ [c])) = 0xFFFFFFFF#32 := by
  have read : inetAton (quad a ++ [c]) = none := by
    rw [inetAton_quad]
    · rcases mark with rfl | rfl <;> rfl
    · rintro d ⟨⟩
      rcases mark with rfl | rfl
      · exact ⟨rfl, by decide, by decide⟩
      · exact ⟨rfl, by decide, by decide⟩
    · rcases mark with rfl | rfl <;> decide
  rw [inetAddr, read]
  decide

/-! ## The text of a quad -/

theorem toDigits_octet_length (octet : Byte) :
    1 ≤ (Nat.toDigits 10 octet.toNat).length ∧ (Nat.toDigits 10 octet.toNat).length ≤ 3 := by
  refine ⟨Nat.length_toDigits_pos, ?_⟩
  rw [Nat.length_toDigits_le_iff (by decide) (by decide)]
  have bound := octet.isLt
  omega

theorem quad_length (a : BitVec 32) : 7 ≤ (quad a).length ∧ (quad a).length ≤ 15 := by
  have first := toDigits_octet_length (a.extractLsb' 24 8)
  have second := toDigits_octet_length (a.extractLsb' 16 8)
  have third := toDigits_octet_length (a.extractLsb' 8 8)
  have fourth := toDigits_octet_length (a.extractLsb' 0 8)
  simp only [quad_eq, List.length_append, List.length_cons]
  omega

theorem quad_chars (a : BitVec 32) : ∀ c ∈ quad a, c.isDigit = true ∨ c = '.' := by
  intro c member
  simp only [quad_eq, List.mem_append, List.mem_cons] at member
  rcases member with digit | dot | digit | dot | digit | dot | digit
  · exact Or.inl (digits_toDigits _ c digit)
  · exact Or.inr dot
  · exact Or.inl (digits_toDigits _ c digit)
  · exact Or.inr dot
  · exact Or.inl (digits_toDigits _ c digit)
  · exact Or.inr dot
  · exact Or.inl (digits_toDigits _ c digit)

theorem quad_ne_nil (a : BitVec 32) : quad a ≠ [] := by
  have := (quad_length a).1
  rintro empty
  rw [empty] at this
  cases this

end Numbers

end Lib
