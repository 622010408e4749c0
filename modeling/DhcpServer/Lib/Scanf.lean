import Mathlib.Data.List.TakeWhile
import Mathlib.Tactic.Common

/-!
# Lines and conversions of the C library

`fgets` and `sscanf` over lists of characters. A C string ends at its first NUL. A format is a
list of directives; a scan yields the values of the conversions that succeeded, and whether it
stopped because the input was at its end.
-/

namespace Lib
set_option autoImplicit false

/-- `isspace` in the C locale. -/
def isSpace (c : Char) : Bool := [' ', '\t', '\n', '\x0b', '\x0c', '\r'].contains c

/-- The string a character array holds. -/
def cString (cs : List Char) : List Char := cs.takeWhile (· != '\x00')

/-! ## Lines -/

/-- At most `n` characters, up to and with the first newline; and what follows them. -/
def takeLine : Nat → List Char → List Char × List Char
  | 0, file => ([], file)
  | _ + 1, [] => ([], [])
  | n + 1, c :: file =>
    if c = '\n' then
      ([c], file)
    else
      let (line, rest) := takeLine n file
      (c :: line, rest)

/-- `fgets` into an array of `size` characters. -/
def fgets (size : Nat) (file : List Char) : Option (List Char × List Char) :=
  if file = [] then none else some (takeLine (size - 1) file)

section Lines
variable {line rest file : List Char} {n : Nat}

/-- A line that fits is taken with its newline. -/
theorem takeLine_line (unbroken : '\n' ∉ line) (fits : line.length < n) :
    takeLine n (line ++ '\n' :: rest) = (line ++ ['\n'], rest) := by
  induction line generalizing n with
  | nil =>
    obtain ⟨n, rfl⟩ : ∃ k, n = k + 1 := ⟨n - 1, by rw [List.length_nil] at fits; omega⟩
    rfl
  | cons c line ih =>
    obtain ⟨n, rfl⟩ : ∃ k, n = k + 1 := ⟨n - 1, by rw [List.length_cons] at fits; omega⟩
    rw [List.mem_cons, not_or] at unbroken
    rw [List.length_cons] at fits
    rw [List.cons_append, takeLine, if_neg (Ne.symm unbroken.1), ih unbroken.2 (by omega)]
    rfl

/-- A run without a newline is taken as far as there is room. -/
theorem takeLine_unbroken (unbroken : '\n' ∉ line) (fits : line.length ≤ n) :
    takeLine n (line ++ rest) = (line ++ (takeLine (n - line.length) rest).1, (takeLine (n - line.length) rest).2) := by
  induction line generalizing n with
  | nil => rfl
  | cons c line ih =>
    obtain ⟨n, rfl⟩ : ∃ k, n = k + 1 := ⟨n - 1, by rw [List.length_cons] at fits; omega⟩
    rw [List.mem_cons, not_or] at unbroken
    rw [List.length_cons] at fits
    rw [List.cons_append, takeLine, if_neg (Ne.symm unbroken.1), ih unbroken.2 (by omega), List.length_cons,
      Nat.add_sub_add_right]
    rfl

/-- Whole lines, or none. -/
def EndsLine (file : List Char) : Prop := ∀ c ∈ file.getLast?, c = '\n'

theorem endsLine_nil : EndsLine [] := nofun

theorem endsLine_concat : EndsLine (file ++ ['\n']) := by simp [EndsLine]

theorem EndsLine.tail {c : Char} (ends : EndsLine (c :: file)) : EndsLine file := by
  cases file with
  | nil => exact endsLine_nil
  | cons d file =>
    rw [EndsLine, List.getLast?_cons_cons] at ends
    exact ends

/-- A call does not go on behind the end of a line. -/
theorem takeLine_endsLine (nonempty : file ≠ []) (ends : EndsLine file) : EndsLine (takeLine n file).2 ∧
    takeLine n (file ++ rest) = ((takeLine n file).1, (takeLine n file).2 ++ rest) := by
  induction n generalizing file with
  | zero => exact ⟨ends, rfl⟩
  | succ n ih =>
    obtain ⟨c, file, rfl⟩ := List.exists_cons_of_ne_nil nonempty
    rw [List.cons_append, takeLine, takeLine]
    split
    · exact ⟨ends.tail, rfl⟩
    · rename_i other
      have more : file ≠ [] := by
        rintro rfl
        exact other (ends c rfl)
      obtain ⟨endsBehind, taken⟩ := ih more ends.tail
      rw [taken]
      exact ⟨endsBehind, rfl⟩

end Lines

/-! ## Formats -/

inductive Directive where
  /-- White space: any amount of it. -/
  | blank
  | literal (c : Char)
  /-- `%<width>s` -/
  | string (width : Nat)
  /-- `%d` -/
  | decimal
deriving DecidableEq

/-- The directives of a format; the state is the width read so far inside a conversion. -/
def directives : Option Nat → List Char → List Directive
  | _, [] => []
  | none, '%' :: format => directives (some 0) format
  | none, c :: format => (if isSpace c then .blank else .literal c) :: directives none format
  | some width, 's' :: format => .string width :: directives none format
  | some _, 'd' :: format => .decimal :: directives none format
  | some width, c :: format => directives (some (width * 10 + (c.toNat - '0'.toNat))) format

inductive Value where
  | string (token : List Char)
  | decimal (n : Int)

/-- What a scan assigned, and whether it ended on an input failure. -/
structure Scanned where
  values : List Value
  inputFailure : Bool

namespace Scanned

/-- The value of `sscanf`: the number of assignments, or `EOF`. -/
def returned (r : Scanned) : Int := if r.values = [] && r.inputFailure then -1 else r.values.length

def cons (value : Value) (r : Scanned) : Scanned := { r with values := value :: r.values }

end Scanned

/-- An optional sign. -/
def takeSign : List Char → Int × List Char
  | '-' :: rest => (-1, rest)
  | '+' :: rest => (1, rest)
  | cs => (1, cs)

/-- `strtol` to base ten: an optional sign and digits, clamped to a `long`. -/
def strtol (cs : List Char) : Option (Int × List Char) :=
  let (sign, unsigned) := takeSign cs
  let digits := unsigned.takeWhile Char.isDigit
  if digits = [] then
    none
  else
    let n := sign * Nat.ofDigitChars 10 digits 0
    some (max (-0x8000000000000000) (min n 0x7FFFFFFFFFFFFFFF), unsigned.dropWhile Char.isDigit)

/-- The directives against the input. A literal that differs or a number without digits ends the
scan; so does the end of the input, which is an input failure. -/
def scanFormat : List Directive → List Char → Scanned
  | [], _ => ⟨[], false⟩
  | .blank :: format, cs => scanFormat format (cs.dropWhile isSpace)
  | .literal _ :: _, [] => ⟨[], true⟩
  | .literal c :: format, d :: cs => if d = c then scanFormat format cs else ⟨[], false⟩
  | .string width :: format, cs =>
    match cs.dropWhile isSpace with
    | [] => ⟨[], true⟩
    | start =>
      let token := (start.takeWhile fun c => !isSpace c).take width
      (scanFormat format (start.drop token.length)).cons (.string token)
  | .decimal :: format, cs =>
    match cs.dropWhile isSpace with
    | [] => ⟨[], true⟩
    | start =>
      match strtol start with
      | none => ⟨[], false⟩
      | some (n, rest) => (scanFormat format rest).cons (.decimal n)

/-- `sscanf`. -/
def sscanf (format : String) (cs : List Char) : Scanned := scanFormat (directives none format.toList) cs

section Scan
variable {format : List Directive} {cs token rest : List Char} {width : Nat}

/-- Equal text is stepped over. -/
theorem scanFormat_literals (text : List Char) :
    scanFormat (text.map .literal ++ format) (text ++ cs) = scanFormat format cs := by
  induction text with
  | nil => rfl
  | cons c text ih => rw [List.map_cons, List.cons_append, List.cons_append, scanFormat, if_pos rfl, ih]

/-- One blank is any blank. -/
theorem scanFormat_blank {c : Char} (solid : isSpace c = false) :
    scanFormat (.blank :: format) (' ' :: c :: cs) = scanFormat format (c :: cs) := by
  rw [scanFormat, List.dropWhile_cons_of_pos (by decide), List.dropWhile_cons_of_neg (by simp [solid])]

/-- A blank and a word of the format. -/
theorem scanFormat_word {c : Char} (word : List Char) (solid : isSpace c = false) :
    scanFormat (.blank :: ((c :: word).map .literal ++ format)) (' ' :: (c :: word ++ cs)) = scanFormat format cs :=
  (scanFormat_blank solid).trans (scanFormat_literals (c :: word))

/-- `%<width>s` takes exactly `token` in front of `rest`: a token of full width, or one in front of
white space or the end. -/
structure Takes (width : Nat) (token rest : List Char) : Prop where
  nonempty : token ≠ []
  solid : ∀ c ∈ token, isSpace c = false
  ends : token.length = width ∨ token.length ≤ width ∧ ∀ c ∈ rest.head?, isSpace c = true

theorem scanFormat_token (takes : Takes width token rest) :
    scanFormat (.string width :: format) (token ++ rest) = (scanFormat format rest).cons (.string token) := by
  obtain ⟨nonempty, solid, ends⟩ := takes
  have whole : (token ++ rest).takeWhile (fun c => !isSpace c) = token ++ rest.takeWhile fun c => !isSpace c :=
    List.takeWhile_append_of_pos fun c member => by rw [solid c member]; rfl
  have taken : ((token ++ rest).takeWhile fun c => !isSpace c).take width = token := by
    rw [whole]
    rcases ends with full | ⟨fits, stop⟩
    · exact List.take_left' full
    · have none : rest.takeWhile (fun c => !isSpace c) = [] := by
        cases rest with
        | nil => rfl
        | cons c rest => exact List.takeWhile_cons_of_neg (by simp [stop c rfl])
      rw [none, List.append_nil, List.take_of_length_le fits]
  obtain ⟨c, token, rfl⟩ := List.exists_cons_of_ne_nil nonempty
  have start : (c :: token ++ rest).dropWhile isSpace = c :: token ++ rest :=
    List.dropWhile_cons_of_neg (by simp [solid c List.mem_cons_self])
  rw [scanFormat, start, List.cons_append]
  simp only
  rw [← List.cons_append, taken, List.drop_left]

/-- A blank and a token. -/
theorem scanFormat_field (takes : Takes width token rest) :
    scanFormat (.blank :: .string width :: format) (' ' :: (token ++ rest)) =
      (scanFormat format rest).cons (.string token) := by
  rw [← scanFormat_token takes]
  obtain ⟨c, token, rfl⟩ := List.exists_cons_of_ne_nil takes.nonempty
  exact scanFormat_blank (takes.solid c List.mem_cons_self)

theorem isSpace_of_isDigit {c : Char} (digit : c.isDigit = true) : isSpace c = false := by
  have other : ∀ s, s.isDigit = false → c ≠ s := by
    rintro s notDigit rfl
    rw [digit] at notDigit
    cases notDigit
  simp only [isSpace, List.contains_eq_mem, decide_eq_false_iff_not, List.mem_cons, List.not_mem_nil, or_false,
    not_or]
  exact ⟨other _ rfl, other _ rfl, other _ rfl, other _ rfl, other _ rfl, other _ rfl⟩

theorem digits_toDigits (n : Nat) : ∀ c ∈ Nat.toDigits 10 n, c.isDigit = true :=
  fun _ member => Nat.isDigit_of_mem_toDigits (by decide) (by decide) member

/-- The digits in front of another character. -/
theorem takeWhile_toDigits {n : Nat} (ends : ∀ c ∈ rest.head?, c.isDigit = false) :
    (Nat.toDigits 10 n ++ rest).takeWhile Char.isDigit = Nat.toDigits 10 n ∧
      (Nat.toDigits 10 n ++ rest).dropWhile Char.isDigit = rest := by
  rw [List.takeWhile_append_of_pos (digits_toDigits n), List.dropWhile_append_of_pos (digits_toDigits n)]
  cases rest with
  | nil => exact ⟨List.append_nil _, rfl⟩
  | cons c rest =>
    have stop : ¬ c.isDigit = true := by simp [ends c rfl]
    rw [List.takeWhile_cons_of_neg stop, List.dropWhile_cons_of_neg stop]
    exact ⟨List.append_nil _, rfl⟩

theorem takeSign_of_digit {c : Char} (digit : c.isDigit = true) : takeSign (c :: cs) = (1, c :: cs) := by
  unfold takeSign
  split
  · rename_i same
    obtain ⟨rfl, -⟩ := List.cons.inj same
    cases digit
  · rename_i same
    obtain ⟨rfl, -⟩ := List.cons.inj same
    cases digit
  · rfl

/-- The digits of a number start with a digit. -/
theorem toDigits_cons (n : Nat) : ∃ d ds, Nat.toDigits 10 n = d :: ds ∧ d.isDigit = true := by
  obtain ⟨d, ds, split⟩ := List.exists_cons_of_ne_nil (@Nat.toDigits_ne_nil n 10)
  refine ⟨d, ds, split, ?_⟩
  apply digits_toDigits n
  rw [split]
  exact List.mem_cons_self

/-- An unsigned number in front of another character. -/
theorem strtol_toDigits {n : Nat} (long : n ≤ 0x7FFFFFFFFFFFFFFF) (ends : ∀ c ∈ rest.head?, c.isDigit = false) :
    strtol (Nat.toDigits 10 n ++ rest) = some ((n : Int), rest) := by
  obtain ⟨taken, dropped⟩ := @takeWhile_toDigits rest n ends
  obtain ⟨d, ds, split, digit⟩ := toDigits_cons n
  have unsigned : takeSign (Nat.toDigits 10 n ++ rest) = (1, Nat.toDigits 10 n ++ rest) := by
    rw [split]
    exact takeSign_of_digit digit
  rw [strtol, unsigned]
  simp only
  rw [taken, dropped, if_neg Nat.toDigits_ne_nil, Nat.ofDigitChars_ten_toDigits, Int.one_mul,
    Int.min_eq_left (by omega), Int.max_eq_right (by omega)]

/-- So does a conversion read it. -/
theorem scanFormat_decimal {n : Nat} (long : n ≤ 0x7FFFFFFFFFFFFFFF)
    (ends : ∀ c ∈ rest.head?, c.isDigit = false) :
    scanFormat (.decimal :: format) (Nat.toDigits 10 n ++ rest) = (scanFormat format rest).cons (.decimal n) := by
  have number := strtol_toDigits long ends
  obtain ⟨d, ds, split, digit⟩ := toDigits_cons n
  rw [split, List.cons_append] at number ⊢
  rw [scanFormat, List.dropWhile_cons_of_neg (by simp [isSpace_of_isDigit digit])]
  simp only [number]

/-- A blank and a number. -/
theorem scanFormat_decimal_field {n : Nat} (long : n ≤ 0x7FFFFFFFFFFFFFFF)
    (ends : ∀ c ∈ rest.head?, c.isDigit = false) :
    scanFormat (.blank :: .decimal :: format) (' ' :: (Nat.toDigits 10 n ++ rest)) =
      (scanFormat format rest).cons (.decimal n) := by
  rw [← scanFormat_decimal long ends]
  obtain ⟨d, ds, split, digit⟩ := toDigits_cons n
  rw [split]
  exact scanFormat_blank (isSpace_of_isDigit digit)

end Scan

end Lib
