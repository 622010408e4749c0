import DhcpServer.TypeScan

/-!
# The bounds of the message type scan

The loop condition of `get_dhcp_message_type` guards the code byte only. `Visits` are the cursors
of its turns; what a turn reads is its code, the length behind it unless the code is `END`, and
the value behind that at an option 53 with a value.
-/

namespace DhcpServer
set_option autoImplicit false
open Lib

/-- The cursor comes to an offset: to the first option, or past an option that is stepped over. -/
inductive Visits (options : Memory) (optionsLen : Nat) : Nat → Prop where
  | first : Visits options optionsLen 4
  | next {i : Nat} : Visits options optionsLen i → i < optionsLen → options i ≠ OptionCode.endMark →
      ¬ typedAt options i → Visits options optionsLen (i + 2 + (options (i + 1)).toNat)

/-- The offsets that a turn at cursor `i` reads. -/
def ReadAt (options : Memory) (i j : Nat) : Prop :=
  j = i ∨ options i ≠ OptionCode.endMark ∧ (j = i + 1 ∨ typedAt options i ∧ j = i + 2)

section Bounds
variable {options : Memory} {optionsLen : Nat}

theorem reads_of_visits {i j : Nat} (visits : Visits options optionsLen i)
    (read : j ∈ (typeScanFrom optionsLen i).reads options) : j ∈ (typeScan optionsLen).reads options := by
  induction visits with
  | first => exact read
  | next _ within unended untyped ih =>
    apply ih
    rw [mem_reads_typeScanFrom, if_neg untyped]
    exact ⟨within, Or.inr ⟨unended, Or.inr read⟩⟩

theorem visits_of_reads {i j : Nat} (visits : Visits options optionsLen i)
    (read : j ∈ (typeScanFrom optionsLen i).reads options) :
    ∃ k, Visits options optionsLen k ∧ k < optionsLen ∧ ReadAt options k j := by
  induction hn : optionsLen - i using Nat.strongRecOn generalizing i with
  | ind n ih =>
    subst hn
    obtain ⟨within, rfl | ⟨unended, rfl | later⟩⟩ := (mem_reads_typeScanFrom options optionsLen i).mp read
    · exact ⟨_, visits, within, Or.inl rfl⟩
    · exact ⟨i, visits, within, Or.inr ⟨unended, Or.inl rfl⟩⟩
    · by_cases typed : typedAt options i
      · rw [if_pos typed] at later
        exact ⟨i, visits, within, Or.inr ⟨unended, Or.inr ⟨typed, later⟩⟩⟩
      · rw [if_neg typed] at later
        exact ih _ (by omega) (visits.next within unended typed) later rfl

/-- The scan reads what its turns read. -/
theorem mem_reads_typeScan {j : Nat} : j ∈ (typeScan optionsLen).reads options ↔
    ∃ i, Visits options optionsLen i ∧ i < optionsLen ∧ ReadAt options i j := by
  constructor
  · exact visits_of_reads .first
  · rintro ⟨i, visits, within, read⟩
    apply reads_of_visits visits
    rw [mem_reads_typeScanFrom]
    refine ⟨within, read.imp_right fun ⟨unended, rest⟩ => ⟨unended, rest.imp_right ?_⟩⟩
    rintro ⟨typed, rfl⟩
    rw [if_pos typed]

end Bounds

/-- **When the scan stays within its buffer**: when no turn finds its option's code in the last byte
of the buffer, `END` excepted, and none finds the length of an option 53 there. -/
theorem reads_inside_iff (options : Memory) (optionsLen : Nat) :
    (∀ j ∈ (typeScan optionsLen).reads options, j < optionsLen) ↔
      ∀ i, Visits options optionsLen i → (i + 1 = optionsLen → options i = OptionCode.endMark) ∧
        (i + 2 = optionsLen → ¬ typedAt options i) := by
  constructor
  · intro inside i visits
    constructor
    · intro last
      by_contra unended
      have read := inside (i + 1) (mem_reads_typeScan.mpr
        ⟨i, visits, by omega, Or.inr ⟨unended, Or.inl rfl⟩⟩)
      omega
    · intro last typed
      have unended : options i ≠ OptionCode.endMark := by
        rw [typed.1]
        decide
      have read := inside (i + 2) (mem_reads_typeScan.mpr
        ⟨i, visits, by omega, Or.inr ⟨unended, Or.inr ⟨typed, rfl⟩⟩⟩)
      omega
  · intro guarded j read
    obtain ⟨i, visits, within, rfl | ⟨unended, rest⟩⟩ := mem_reads_typeScan.mp read
    · exact within
    · obtain ⟨code, value⟩ := guarded i visits
      have notLast : i + 1 ≠ optionsLen := fun last => unended (code last)
      rcases rest with rfl | ⟨typed, rfl⟩
      · omega
      · have notNext : i + 2 ≠ optionsLen := fun last => value last typed
        omega

/-- Two long options and a third whose code is the last of the 312 bytes. -/
def straddling : Memory :=
  ((Memory.zero.write 0 (optionMagic ++ [12#8, 255#8])).write 261 [12#8, 48#8]).write 311 [12#8]

theorem straddling_reads : (typeScan 312).reads straddling = [4, 5, 261, 262, 311, 312] ∧
    ¬ ∀ j ∈ (typeScan 312).reads straddling, j < 312 := by
  have reads : (typeScan 312).reads straddling = [4, 5, 261, 262, 311, 312] := by decide
  refine ⟨reads, fun inside => ?_⟩
  have last := inside 312 (by rw [reads]; decide)
  exact Nat.lt_irrefl 312 last

end DhcpServer
