import DhcpServer.OptionList

/-!
# How far the option parser comes

`parse_options_to_list` appends every option as it comes to it and finds a failure only behind the
last whole one. An `OptionWalk` is the part of the buffer it has gone through by then; where the walk
stops decides what is returned, what the list has become and what was read.
-/

namespace DhcpServer
set_option autoImplicit false
open Lib

/-- Options one behind the other from offset `i` to offset `j`, each ending in front of `len`. -/
inductive OptionWalk (m : Memory) (len : Nat) : Nat → List DhcpOption → Nat → Prop where
  | here {i : Nat} : OptionWalk m len i [] i
  | next {i j : Nat} {rest : List DhcpOption} : m i ≠ OptionCode.endMark → i + 2 + (m (i + 1)).toNat < len →
      OptionWalk m len (i + 2 + (m (i + 1)).toNat) rest j → OptionWalk m len i (optionAt m i :: rest) j

/-- At offset `j` there is no option that ends in front of `len`. -/
def Stops (m : Memory) (len j : Nat) : Prop := m j = OptionCode.endMark ∨ len ≤ j + 2 + (m (j + 1)).toNat

section Walk
variable {m : Memory} {len i j fuel : Nat} {list options : List DhcpOption} {stuck : Bool × List DhcpOption}

/-- Every walk goes on until it stops. -/
theorem walk_stops (m : Memory) (len i : Nat) : ∃ options j, OptionWalk m len i options j ∧ Stops m len j := by
  induction hn : len - i using Nat.strongRecOn generalizing i with
  | ind n ih =>
    subst hn
    rcases turn_cases m len i with ⟨unended, fits⟩ | stops
    · obtain ⟨rest, j, walk, stops⟩ := ih _ (by omega) (i + 2 + (m (i + 1)).toNat) rfl
      exact ⟨_, j, .next unended fits walk, stops⟩
    · exact ⟨[], i, .here, stops⟩

/-- A chain is a walk to an end mark. -/
theorem optionChain_of_walk (walk : OptionWalk m len i options j) (within : j < len)
    (ended : m j = OptionCode.endMark) : OptionChain m len i options := by
  induction walk with
  | here => exact .ended within ended
  | next unended fits _ ih => exact .next unended fits (ih within ended)

theorem OptionWalk.start_le (walk : OptionWalk m len i options j) : i ≤ j := by
  induction walk with
  | here => exact Nat.le_refl _
  | next _ _ _ ih => omega

/-- **The loop** appends the options of the walk, and succeeds when it stops at an end mark. -/
theorem run_parseLoop_walk (walk : OptionWalk m len i options j) (stops : Stops m len j) (enough : len - i < fuel) :
    (ReadProg.loop (parseTurn len) stuck fuel (i, list)).run m =
      (decide (j < len) && m j == OptionCode.endMark, list ++ options) := by
  induction walk generalizing list fuel with
  | here =>
    obtain ⟨fuel, rfl⟩ : ∃ k, fuel = k + 1 := ⟨fuel - 1, by omega⟩
    rw [ReadProg.run_loop_stop (run_parseTurn_stop stops), List.append_nil]
  | next unended fits _ ih =>
    obtain ⟨fuel, rfl⟩ : ∃ k, fuel = k + 1 := ⟨fuel - 1, by omega⟩
    rw [ReadProg.run_loop_next (run_parseTurn_next unended fits), ih stops (by omega), List.append_assoc,
      List.singleton_append]

end Walk

/-! ## What a parse leaves in the list -/

/-- Why a parse fails, and the options it has appended by then. -/
inductive ParseFails (m : Memory) (len : Nat) : List DhcpOption → Prop where
  | short (few : len < 4) : ParseFails m len []
  | cookie (other : m.slice 0 4 ≠ optionMagic) : ParseFails m len []
  | cut {options : List DhcpOption} {j : Nat} (walk : OptionWalk m len 4 options j)
      (beyond : len ≤ j ∨ m j ≠ OptionCode.endMark ∧ len ≤ j + 2 + (m (j + 1)).toNat) :
      ParseFails m len options

/-- **A parse only appends**: all options when it succeeds; those that lie whole in front of the
failure when it fails. -/
theorem parse_appends (m : Memory) (len : BitVec 64) (list : List DhcpOption) :
    ∃ accepted options, (parseOptionsToList list len).run m = (accepted, list ++ options) ∧
      (accepted = true → OptionChain m len.toNat 4 options) ∧
      (accepted = false → ParseFails m len.toNat options) := by
  by_cases few : len < 4#64
  · refine ⟨false, [], ?_, nofun, fun _ => .short (BitVec.lt_def.mp few)⟩
    rw [parseOptionsToList, if_pos few, List.append_nil]
    rfl
  · by_cases cookie : m.slice 0 4 = optionMagic
    · obtain ⟨options, j, walk, stops⟩ := walk_stops m len.toNat 4
      refine ⟨decide (j < len.toNat) && m j == OptionCode.endMark, options, ?_, ?_, ?_⟩
      · rw [parseOptionsToList, if_neg few, ReadProg.run_bind, ReadProg.run_bytes, cookie, if_neg (not_not.mpr rfl)]
        exact run_parseLoop_walk walk stops (by omega)
      · intro accepted
        simp only [Bool.and_eq_true, decide_eq_true_eq, beq_iff_eq] at accepted
        exact optionChain_of_walk walk accepted.1 accepted.2
      · intro refused
        refine .cut walk ?_
        by_cases within : j < len.toNat
        · have unended : m j ≠ OptionCode.endMark := by simpa [within] using refused
          exact Or.inr ⟨unended, stops.resolve_left unended⟩
        · exact Or.inl (Nat.le_of_not_lt within)
    · refine ⟨false, [], ?_, nofun, fun _ => .cookie cookie⟩
      rw [parseOptionsToList, if_neg few, ReadProg.run_bind, ReadProg.run_bytes, if_pos cookie, List.append_nil]
      rfl

/-- A whole option in front of one that is too long. -/
def cutOptions : Memory := Memory.zero.write 0 (optionMagic ++ [OptionCode.dhcpMessageType, 1#8, 1#8, 12#8, 5#8])

/-- The first option stays in the list of a parse that fails. -/
theorem failed_parse_appends : ((parseOptionsToList [] 9#64).run cutOptions).1 = false ∧
    ((parseOptionsToList [] 9#64).run cutOptions).2.map DhcpOption.id = [OptionCode.dhcpMessageType] ∧
    ¬ ∀ (list : List DhcpOption) (m : Memory) (len : BitVec 64), ((parseOptionsToList list len).run m).1 = false →
      ((parseOptionsToList list len).run m).2 = list := by
  have left : ((parseOptionsToList [] 9#64).run cutOptions).2.map DhcpOption.id = [OptionCode.dhcpMessageType] := by
    decide
  refine ⟨by decide, left, fun atomic => ?_⟩
  rw [atomic [] cutOptions 9#64 (by decide)] at left
  cases left

/-! ## What a parse reads -/

section Reads
variable {m : Memory} {len i j fuel : Nat} {list options : List DhcpOption} {stuck : Bool × List DhcpOption}

theorem reads_parseTurn_next (unended : m i ≠ OptionCode.endMark) (fits : i + 2 + (m (i + 1)).toNat < len) :
    ∀ k ∈ (parseTurn len (i, list)).reads m, k < len := by
  have within : i < len := by omega
  intro k read
  simp [parseTurn, appendOption, within, unended, Nat.not_le.mpr fits, List.mem_range'] at read
  omega

/-- The turn that leaves reads the length byte behind any code but an end mark. -/
theorem reads_parseTurn_stop (stops : Stops m len i) :
    (∀ k ∈ (parseTurn len (i, list)).reads m, k < len) ↔ (i + 1 = len → m i = OptionCode.endMark) := by
  by_cases within : i < len
  · by_cases ended : m i = OptionCode.endMark
    · simp [parseTurn, parseEnd, within, ended]
    · simp [parseTurn, within, ended, stops.resolve_left ended]
      omega
  · simp [parseTurn, parseEnd, within]
    omega

/-- The loop reads past the end only where the walk stops. -/
theorem reads_parseLoop_walk (walk : OptionWalk m len i options j) (stops : Stops m len j) (enough : len - i < fuel) :
    (∀ k ∈ (ReadProg.loop (parseTurn len) stuck fuel (i, list)).reads m, k < len) ↔
      (j + 1 = len → m j = OptionCode.endMark) := by
  induction walk generalizing list fuel with
  | here =>
    obtain ⟨fuel, rfl⟩ : ∃ k, fuel = k + 1 := ⟨fuel - 1, by omega⟩
    rw [ReadProg.reads_loop_stop (run_parseTurn_stop stops), reads_parseTurn_stop stops]
  | next unended fits _ ih =>
    obtain ⟨fuel, rfl⟩ : ∃ k, fuel = k + 1 := ⟨fuel - 1, by omega⟩
    rw [ReadProg.reads_loop_next (run_parseTurn_next unended fits), List.forall_mem_append, ih stops (by omega)]
    exact and_iff_right (reads_parseTurn_next unended fits)

end Reads

/-- **When a parse reads only its input**: unless, behind the cookie and a walk over whole options, the
code of an option is the last byte of the buffer, `END` excepted. -/
theorem parse_reads_inside_iff (list : List DhcpOption) (m : Memory) (len : BitVec 64) :
    (∀ k ∈ (parseOptionsToList list len).reads m, k < len.toNat) ↔
      (m.slice 0 4 = optionMagic → ∀ options j, OptionWalk m len.toNat 4 options j → j + 1 = len.toNat →
        m j = OptionCode.endMark) := by
  by_cases few : len < 4#64
  · rw [parseOptionsToList, if_pos few]
    refine iff_of_true (List.forall_mem_nil _) fun _ options j walk last => ?_
    have start := walk.start_le
    have short := BitVec.lt_def.mp few
    change len.toNat < 4 at short
    omega
  · have room : 4 ≤ len.toNat := BitVec.le_def.mp (BitVec.not_lt.mp few)
    have cookieReads : ∀ k ∈ List.range' 0 4, k < len.toNat := by
      intro k member
      rw [List.mem_range'_1] at member
      omega
    rw [parseOptionsToList, if_neg few, ReadProg.reads_bind, ReadProg.reads_bytes, ReadProg.run_bytes,
      List.forall_mem_append, and_iff_right cookieReads]
    by_cases cookie : m.slice 0 4 = optionMagic
    · rw [if_neg (not_not.mpr cookie), forall_prop_of_true cookie]
      constructor
      · intro inside options j walk last
        have stops : Stops m len.toNat j := Or.inr (by omega)
        exact (reads_parseLoop_walk walk stops (by omega)).mp inside last
      · intro ends
        obtain ⟨options, j, walk, stops⟩ := walk_stops m len.toNat 4
        exact (reads_parseLoop_walk walk stops (by omega)).mpr (ends options j walk)
    · rw [if_pos cookie]
      exact iff_of_true (List.forall_mem_nil _) fun same => (cookie same).elim

/-- The fifth byte of five is a code. -/
theorem parse_reads_past : (parseOptionsToList [] 5#64).reads (Memory.zero.write 0 (optionMagic ++ [12#8])) =
      [0, 1, 2, 3, 4, 5] ∧
    ¬ ∀ k ∈ (parseOptionsToList [] 5#64).reads (Memory.zero.write 0 (optionMagic ++ [12#8])), k < 5 := by
  have reads : (parseOptionsToList [] 5#64).reads (Memory.zero.write 0 (optionMagic ++ [12#8])) =
      [0, 1, 2, 3, 4, 5] := by decide
  refine ⟨reads, fun inside => ?_⟩
  have last := inside 5 (by rw [reads]; decide)
  exact Nat.lt_irrefl 5 last

end DhcpServer
