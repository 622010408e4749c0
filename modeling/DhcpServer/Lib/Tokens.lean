import DhcpServer.Lib.Inet

/-!
# Tokens and numbers of the C library

`strtok` and `strtol` to base zero over lists of characters. A `strtok` loop may give another set of
delimiters from the second call on; what these calls yield is the text behind the first token cut at
its delimiters (`pieces`).
-/

namespace Lib
set_option autoImplicit false

/-! ## Tokens -/

/-- One call of `strtok`: the token, and the text the next call goes on with, behind the delimiter that
ends it. -/
def strtok (delims : List Char) (cs : List Char) : Option (List Char × List Char) :=
  match cs.dropWhile delims.contains with
  | [] => none
  | start =>
    some (start.takeWhile fun c => !delims.contains c, (start.dropWhile fun c => !delims.contains c).drop 1)

/-- The tokens of the calls from some point on. Each takes a character, so as many calls as there are
characters are enough. -/
def strtokRest (delims : List Char) : Nat → List Char → List (List Char)
  | 0, _ => []
  | fuel + 1, cs =>
    match strtok delims cs with
    | none => []
    | some (token, rest) => token :: strtokRest delims fuel rest

/-- The tokens of `strtok(s, first)` and the calls `strtok(NULL, next)` after it. -/
def strtokAll (first next : List Char) (cs : List Char) : List (List Char) :=
  match strtok first cs with
  | none => []
  | some (token, rest) => token :: strtokRest next rest.length rest

/-- A text cut at the delimiters, without the empty pieces. -/
def pieces (delims : List Char) (cs : List Char) : List (List Char) :=
  (cs.splitOnP delims.contains).filter fun piece => !piece.isEmpty

section Tokens
variable {delims : List Char} {word cs : List Char} {c : Char} {fuel : Nat}

@[simp] theorem pieces_nil : pieces delims [] = [] := by simp [pieces]

theorem pieces_delim (delim : c ∈ delims) : pieces delims (c :: cs) = pieces delims cs := by
  simp [pieces, List.splitOnP_cons_eq_if_modifyHead, delim]

theorem pieces_solid (nonempty : word ≠ []) (solid : ∀ c ∈ word, c ∉ delims) : pieces delims word = [word] := by
  have plain : ∀ c ∈ word, delims.contains c = false := fun c member => by simpa using solid c member
  simp [pieces, List.splitOnP_eq_singleton plain, nonempty]

theorem pieces_solid_delim (nonempty : word ≠ []) (solid : ∀ c ∈ word, c ∉ delims) (delim : c ∈ delims) :
    pieces delims (word ++ c :: cs) = word :: pieces delims cs := by
  have plain : ∀ c ∈ word, delims.contains c = false := fun c member => by simpa using solid c member
  have mark : delims.contains c = true := List.contains_iff_mem.mpr delim
  simp [pieces, List.splitOnP_append_cons_of_forall_mem plain c mark, nonempty]

/-- Where a run of other characters ends, a delimiter follows or the text ends. -/
theorem dropWhile_solid_cases (delims cs : List Char) : (cs.dropWhile fun c => !delims.contains c) = [] ∨
    ∃ d rest, (cs.dropWhile fun c => !delims.contains c) = d :: rest ∧ d ∈ delims := by
  have head := List.head?_dropWhile_not (fun c => !delims.contains c) cs
  cases behind : cs.dropWhile fun c => !delims.contains c with
  | nil => exact Or.inl rfl
  | cons d rest =>
    rw [behind] at head
    exact Or.inr ⟨d, rest, rfl, by simpa using head⟩

/-- The first piece of a text that does not start with a delimiter. -/
theorem pieces_word (nonempty : word ≠ []) (solid : ∀ c ∈ word, c ∉ delims) :
    pieces delims (word ++ cs) = (word ++ cs.takeWhile fun c => !delims.contains c) ::
      pieces delims (cs.dropWhile fun c => !delims.contains c) := by
  have nonempty' : word ++ cs.takeWhile (fun c => !delims.contains c) ≠ [] := by simp [nonempty]
  have solid' : ∀ c ∈ word ++ cs.takeWhile (fun c => !delims.contains c), c ∉ delims := by
    intro c member
    rcases List.mem_append.mp member with inWord | inRun
    · exact solid c inWord
    · simpa using List.mem_takeWhile_imp inRun
  have whole : word ++ cs = (word ++ cs.takeWhile fun c => !delims.contains c) ++
      cs.dropWhile fun c => !delims.contains c := by
    rw [List.append_assoc, List.takeWhile_append_dropWhile]
  rcases dropWhile_solid_cases delims cs with ended | ⟨d, rest, behind, delim⟩
  · rw [whole, ended, List.append_nil, pieces_solid nonempty' solid', pieces_nil]
  · rw [whole, behind, pieces_solid_delim nonempty' solid' delim, pieces_delim delim]

/-- A word in front of a delimiter or the end. -/
theorem pieces_word_delim (nonempty : word ≠ []) (solid : ∀ c ∈ word, c ∉ delims)
    (ends : ∀ c ∈ cs.head?, c ∈ delims) :
    pieces delims (word ++ cs) = word :: pieces delims cs := by
  cases cs with
  | nil => rw [List.append_nil, pieces_solid nonempty solid, pieces_nil]
  | cons c cs =>
    have delim := ends c rfl
    rw [pieces_solid_delim nonempty solid delim, pieces_delim delim]

/-- Delimiters in front do not count. -/
theorem pieces_delims (delimiters : ∀ c ∈ word, c ∈ delims) : pieces delims (word ++ cs) = pieces delims cs := by
  induction word with
  | nil => rfl
  | cons c word ih =>
    obtain ⟨delim, others⟩ := List.forall_mem_cons.mp delimiters
    rw [List.cons_append, pieces_delim delim, ih others]

theorem pieces_dropWhile (delims cs : List Char) : pieces delims (cs.dropWhile delims.contains) = pieces delims cs := by
  induction cs with
  | nil => rfl
  | cons c cs ih =>
    rw [List.dropWhile_cons]
    split
    · rename_i delim
      rw [ih, pieces_delim (List.contains_iff_mem.mp delim)]
    · rfl

/-- Every other character is in a piece. -/
theorem mem_pieces (member : c ∈ cs) (solid : c ∉ delims) : ∃ piece ∈ pieces delims cs, c ∈ piece := by
  induction size : cs.length using Nat.strongRecOn generalizing cs with
  | ind n ih =>
    cases cs with
    | nil => cases member
    | cons d more =>
      by_cases delim : d ∈ delims
      · rw [pieces_delim delim]
        refine ih more.length (by rw [← size]; exact Nat.lt_succ_self _) ?_ rfl
        rcases List.mem_cons.mp member with rfl | later
        · exact (solid delim).elim
        · exact later
      · have word : pieces delims (d :: more) = (d :: more.takeWhile fun c => !delims.contains c) ::
            pieces delims (more.dropWhile fun c => !delims.contains c) :=
          pieces_word (List.cons_ne_nil d []) (by simpa using delim)
        have less := (List.dropWhile_suffix (fun c => !delims.contains c) (l := more)).length_le
        rw [← List.takeWhile_append_dropWhile (p := fun c => !delims.contains c) (l := more), ← List.cons_append,
          List.mem_append] at member
        rw [word]
        rcases member with first | later
        · exact ⟨_, List.mem_cons_self, first⟩
        · obtain ⟨piece, inRest, inPiece⟩ := ih _ (by rw [← size]; exact Nat.lt_succ_of_le less) later rfl
          exact ⟨piece, List.mem_cons_of_mem _ inRest, inPiece⟩

/-- **The calls yield the pieces.** -/
theorem strtokRest_eq_pieces (enough : cs.length ≤ fuel) : strtokRest delims fuel cs = pieces delims cs := by
  induction fuel generalizing cs with
  | zero =>
    rw [List.eq_nil_of_length_eq_zero (Nat.le_zero.mp enough), pieces_nil]
    rfl
  | succ fuel ih =>
    have shorter := (List.dropWhile_suffix delims.contains (l := cs)).length_le
    have head := List.head?_dropWhile_not delims.contains cs
    rw [← pieces_dropWhile, strtokRest, strtok]
    generalize cs.dropWhile delims.contains = start at shorter head
    cases start with
    | nil => rw [pieces_nil]
    | cons c more =>
      have solid : ∀ d ∈ [c], d ∉ delims := by simpa using head
      have other : (!delims.contains c) = true := by simpa using head
      have word : pieces delims (c :: more) = (c :: more.takeWhile fun c => !delims.contains c) ::
          pieces delims (more.dropWhile fun c => !delims.contains c) := pieces_word (List.cons_ne_nil c []) solid
      have run : (c :: more).takeWhile (fun c => !delims.contains c) =
          c :: more.takeWhile fun c => !delims.contains c := List.takeWhile_cons_of_pos other
      have rest : (c :: more).dropWhile (fun c => !delims.contains c) =
          more.dropWhile fun c => !delims.contains c := List.dropWhile_cons_of_pos other
      have less := (List.dropWhile_suffix (fun c => !delims.contains c) (l := more)).length_le
      rw [List.length_cons] at shorter
      simp only [run, rest, word]
      rcases dropWhile_solid_cases delims more with ended | ⟨d, rest, behind, delim⟩
      · rw [ended, List.drop_nil, ih (Nat.zero_le _)]
      · rw [behind, List.length_cons] at less
        rw [behind, pieces_delim delim, List.drop_one, List.tail_cons, ih (by omega)]

/-- The first call on a word in front of a delimiter or the end, and the calls after it. -/
theorem strtokAll_word {next : List Char} (nonempty : word ≠ []) (solid : ∀ c ∈ word, c ∉ delims)
    (ends : ∀ c ∈ cs.head?, c ∈ delims) :
    strtokAll delims next (word ++ cs) = word :: pieces next (cs.drop 1) := by
  have plain : ∀ c ∈ word, (!delims.contains c) = true := fun c member => by simpa using solid c member
  have stop : cs.takeWhile (fun c => !delims.contains c) = [] ∧ cs.dropWhile (fun c => !delims.contains c) = cs := by
    cases cs with
    | nil => exact ⟨rfl, rfl⟩
    | cons d cs =>
      have delim : ¬ (!delims.contains d) = true := by simpa using ends d rfl
      exact ⟨List.takeWhile_cons_of_neg delim, List.dropWhile_cons_of_neg delim⟩
  have start : (word ++ cs).dropWhile delims.contains = word ++ cs := by
    obtain ⟨d, ds, rfl⟩ := List.exists_cons_of_ne_nil nonempty
    exact List.dropWhile_cons_of_neg (by simpa using solid d List.mem_cons_self)
  have token : strtok delims (word ++ cs) = some (word, cs.drop 1) := by
    rw [strtok, start]
    split
    · rename_i empty
      exact (nonempty (List.append_eq_nil_iff.mp empty).1).elim
    · rw [List.takeWhile_append_of_pos plain, List.dropWhile_append_of_pos plain, stop.1, stop.2, List.append_nil]
  rw [strtokAll, token]
  simp only [strtokRest_eq_pieces (Nat.le_refl _)]

/-- A token is not empty, and it and the text behind it are apart. -/
theorem strtok_length {token rest : List Char} (call : strtok delims cs = some (token, rest)) :
    token ≠ [] ∧ token.length + rest.length ≤ cs.length := by
  have shorter := (List.dropWhile_suffix delims.contains (l := cs)).length_le
  have head := List.head?_dropWhile_not delims.contains cs
  rw [strtok] at call
  generalize cs.dropWhile delims.contains = start at shorter head call
  cases start with
  | nil => cases call
  | cons c more =>
    cases call
    have solid : (!delims.contains c) = true := by simpa using head
    have split := congrArg List.length
      (List.takeWhile_append_dropWhile (p := fun c => !delims.contains c) (l := c :: more))
    rw [List.length_append] at split
    constructor
    · rw [List.takeWhile_cons_of_pos (p := fun c => !delims.contains c) solid]
      exact List.cons_ne_nil _ _
    · rw [List.length_drop]
      omega

/-- A token in front of others. -/
theorem tokens_length_cons {token rest : List Char} {tokens : List (List Char)}
    (call : strtok delims cs = some (token, rest)) (nonempty : ∀ other ∈ tokens, other ≠ [])
    (shorter : tokens.flatten.length ≤ rest.length) :
    (∀ other ∈ token :: tokens, other ≠ []) ∧ (token :: tokens).flatten.length ≤ cs.length := by
  obtain ⟨first, apart⟩ := strtok_length call
  refine ⟨List.forall_mem_cons.mpr ⟨first, nonempty⟩, ?_⟩
  rw [List.flatten_cons, List.length_append]
  omega

/-- So the tokens have no more characters than the text. -/
theorem strtokRest_length : (∀ token ∈ strtokRest delims fuel cs, token ≠ []) ∧
    (strtokRest delims fuel cs).flatten.length ≤ cs.length := by
  induction fuel generalizing cs with
  | zero => exact ⟨List.forall_mem_nil _, Nat.zero_le _⟩
  | succ fuel ih =>
    rw [strtokRest]
    cases call : strtok delims cs with
    | none => exact ⟨List.forall_mem_nil _, Nat.zero_le _⟩
    | some split => exact tokens_length_cons call ih.1 ih.2

theorem strtokAll_length {next : List Char} : (∀ token ∈ strtokAll delims next cs, token ≠ []) ∧
    (strtokAll delims next cs).flatten.length ≤ cs.length := by
  rw [strtokAll]
  cases call : strtok delims cs with
  | none => exact ⟨List.forall_mem_nil _, Nat.zero_le _⟩
  | some split => exact tokens_length_cons call strtokRest_length.1 strtokRest_length.2

/-- Tokens of at least `least` characters each. -/
theorem mul_length_le_flatten (least : Nat) {tokens : List (List Char)}
    (each : ∀ token ∈ tokens, least ≤ token.length) :
    least * tokens.length ≤ tokens.flatten.length := by
  induction tokens with
  | nil => exact Nat.le_refl _
  | cons token tokens ih =>
    obtain ⟨first, others⟩ := List.forall_mem_cons.mp each
    rw [List.length_cons, Nat.mul_succ, List.flatten_cons, List.length_append, Nat.add_comm]
    exact Nat.add_le_add first (ih others)

end Tokens

/-! ## Numbers -/

/-- A number clamped to a `long` of 64 bits. -/
def clampLong (n : Int) : Int := max (-0x8000000000000000) (min n 0x7FFFFFFFFFFFFFFF)

theorem clampLong_eq {n : Int} (low : -0x8000000000000000 ≤ n) (high : n ≤ 0x7FFFFFFFFFFFFFFF) :
    clampLong n = n := by
  rw [clampLong, Int.min_eq_left high, Int.max_eq_right low]

/-- `strtol(s, NULL, 0)`: zero where no number starts. -/
def strtolAuto (cs : List Char) : Int :=
  let (sign, unsigned) := takeSign (cs.dropWhile isSpace)
  if unsigned.head?.any Char.isDigit then clampLong (sign * (strtoul unsigned).1) else 0

/-- A number in decimal. -/
def decimal (n : Int) : List Char := (if n < 0 then ['-'] else []) ++ Nat.toDigits 10 n.natAbs

section Numbers
variable {rest : List Char} {n : Nat}

theorem strtolAuto_toDigits (ends : EndsNumber rest) :
    strtolAuto (Nat.toDigits 10 n ++ rest) = clampLong n := by
  obtain ⟨d, ds, digits, digit⟩ := toDigits_cons n
  have number := @strtoul_toDigits rest n ends
  rw [digits, List.cons_append] at number ⊢
  rw [strtolAuto, List.dropWhile_cons_of_neg (by simp [isSpace_of_isDigit digit]), takeSign_of_digit digit]
  simp only [number]
  rw [if_pos (by simp [digit]), Int.one_mul]

theorem strtolAuto_decimal (n : Int) : strtolAuto (decimal n) = clampLong n := by
  have ends : EndsNumber [] := nofun
  have natural := @strtolAuto_toDigits [] n.natAbs ends
  rw [List.append_nil] at natural
  unfold decimal
  split
  · rename_i negative
    obtain ⟨d, ds, digits, digit⟩ := toDigits_cons n.natAbs
    have number := @strtoul_toDigits [] n.natAbs ends
    rw [List.append_nil] at number
    rw [strtolAuto, List.singleton_append, List.dropWhile_cons_of_neg (by decide), takeSign]
    simp only [number]
    rw [if_pos (by simp [digits, digit])]
    congr 1
    omega
  · rw [List.nil_append, natural]
    congr 1
    omega

end Numbers

end Lib
