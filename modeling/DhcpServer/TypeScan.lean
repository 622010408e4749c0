import DhcpServer.Lib.ReadProg
import DhcpServer.Options

/-!
# The message type scan (`get_dhcp_message_type`)

The scan is a `ReadProg`, so its reads are part of the model. Its `while` loop moves the cursor
forward by at least two, which `options_len` iterations exhaust.
-/

namespace DhcpServer
set_option autoImplicit false
open Lib

/-- The `while` loop at cursor `i`, for at most `fuel` iterations. -/
def typeScanLoop (optionsLen : Nat) : Nat → Nat → ReadProg Byte
  | 0, _ => pure 0#8
  | fuel + 1, i => do
    if i < optionsLen then
      let code ← .byte i
      if code = OptionCode.endMark then
        pure 0#8
      else if code = OptionCode.dhcpMessageType then
        let optionLen ← .byte (i + 1)
        if 1 ≤ optionLen.toNat then
          .byte (i + 2)
        else
          let len ← .byte (i + 1)
          typeScanLoop optionsLen fuel (i + 2 + len.toNat)
      else
        let len ← .byte (i + 1)
        typeScanLoop optionsLen fuel (i + 2 + len.toNat)
    else
      pure 0#8

/-- The loop at cursor `i`, with the fuel it needs. -/
def typeScanFrom (optionsLen i : Nat) : ReadProg Byte := typeScanLoop optionsLen (optionsLen - i) i

/-- `get_dhcp_message_type`: the scan starts past the magic cookie. -/
def typeScan (optionsLen : Nat) : ReadProg Byte := typeScanFrom optionsLen 4

def getDhcpMessageType (options : Memory) (optionsLen : Nat) : Byte := (typeScan optionsLen).run options

/-- Fuel past the distance to the end changes nothing. -/
theorem typeScanLoop_enough (optionsLen fuel i : Nat) (enough : optionsLen ≤ i + fuel) :
    typeScanLoop optionsLen fuel i = typeScanFrom optionsLen i := by
  unfold typeScanFrom
  induction hn : optionsLen - i using Nat.strongRecOn generalizing fuel i with
  | ind n ih =>
    subst hn
    by_cases within : i < optionsLen
    · obtain ⟨fuel, rfl⟩ : ∃ k, fuel = k + 1 := ⟨fuel - 1, by omega⟩
      obtain ⟨rest, hrest⟩ : ∃ k, optionsLen - i = k + 1 := ⟨optionsLen - i - 1, by omega⟩
      have next : ∀ step : Nat, typeScanLoop optionsLen fuel (i + 2 + step) =
          typeScanLoop optionsLen rest (i + 2 + step) := by
        intro step
        rw [ih (optionsLen - (i + 2 + step)) (by omega) fuel _ (by omega) rfl,
          ← ih (optionsLen - (i + 2 + step)) (by omega) rest _ (by omega) rfl]
      rw [hrest, typeScanLoop, typeScanLoop]
      simp only [next]
    · rw [show optionsLen - i = 0 by omega]
      cases fuel with
      | zero => rfl
      | succ fuel => simp [typeScanLoop, within]

/-- One turn of the loop. -/
theorem typeScanFrom_eq (optionsLen i : Nat) : typeScanFrom optionsLen i =
    if i < optionsLen then do
      let code ← .byte i
      if code = OptionCode.endMark then
        pure 0#8
      else if code = OptionCode.dhcpMessageType then
        let optionLen ← .byte (i + 1)
        if 1 ≤ optionLen.toNat then
          .byte (i + 2)
        else
          let len ← .byte (i + 1)
          typeScanFrom optionsLen (i + 2 + len.toNat)
      else
        let len ← .byte (i + 1)
        typeScanFrom optionsLen (i + 2 + len.toNat)
    else
      pure 0#8 := by
  by_cases within : i < optionsLen
  · rw [← typeScanLoop_enough optionsLen (optionsLen - i - 1 + 1) i (by omega), typeScanLoop]
    have next : ∀ step : Nat, typeScanLoop optionsLen (optionsLen - i - 1) (i + 2 + step) =
        typeScanFrom optionsLen (i + 2 + step) :=
      fun step => typeScanLoop_enough optionsLen _ _ (by omega)
    simp only [next]
  · rw [if_neg within, typeScanFrom, show optionsLen - i = 0 by omega]
    rfl

section Turn
variable (m : Memory) (optionsLen i : Nat)

/-- Whether the scan returns at an option 53: with a value of at least one byte. -/
def typedAt (options : Memory) (i : Nat) : Prop :=
  options i = OptionCode.dhcpMessageType ∧ options (i + 1) ≠ 0#8

instance (options : Memory) (i : Nat) : Decidable (typedAt options i) :=
  inferInstanceAs (Decidable (_ ∧ _))

theorem one_le_toNat_iff {b : Byte} : 1 ≤ b.toNat ↔ b ≠ 0#8 := by
  rw [Nat.one_le_iff_ne_zero, ne_eq, ne_eq, BitVec.toNat_eq]
  rfl

/-- What a turn of the loop yields and what it reads. -/
theorem typeScanFrom_turn : (typeScanFrom optionsLen i).run m =
      (if i < optionsLen then
        if m i = OptionCode.endMark then 0#8
        else if typedAt m i then m (i + 2)
        else (typeScanFrom optionsLen (i + 2 + (m (i + 1)).toNat)).run m
      else 0#8) ∧
    ∀ j, j ∈ (typeScanFrom optionsLen i).reads m ↔
      i < optionsLen ∧ (j = i ∨ m i ≠ OptionCode.endMark ∧ (j = i + 1 ∨
        if typedAt m i then j = i + 2 else j ∈ (typeScanFrom optionsLen (i + 2 + (m (i + 1)).toNat)).reads m)) := by
  rw [typeScanFrom_eq]
  by_cases within : i < optionsLen
  · by_cases ended : m i = OptionCode.endMark
    · simp [within, ended]
    · by_cases code : m i = OptionCode.dhcpMessageType
      · have unended : ¬ OptionCode.dhcpMessageType = OptionCode.endMark := by decide
        by_cases len : m (i + 1) = 0#8 <;> simp [within, code, unended, typedAt, one_le_toNat_iff, len]
      · simp [within, ended, code, typedAt]
  · simp [within]

/-- The value of the scan at cursor `i`. -/
theorem run_typeScanFrom : (typeScanFrom optionsLen i).run m =
    if i < optionsLen then
      if m i = OptionCode.endMark then 0#8
      else if typedAt m i then m (i + 2)
      else (typeScanFrom optionsLen (i + 2 + (m (i + 1)).toNat)).run m
    else 0#8 :=
  (typeScanFrom_turn m optionsLen i).1

/-- At an option 53 the scan returns its first value byte. -/
theorem run_typeScanFrom_typed (within : i < optionsLen) (typed : typedAt m i) :
    (typeScanFrom optionsLen i).run m = m (i + 2) := by
  have unended : m i ≠ OptionCode.endMark := by
    rw [typed.1]
    decide
  rw [run_typeScanFrom, if_pos within, if_neg unended, if_pos typed]

/-- A one-byte option 53 at offset `i` returns the byte it carries. -/
theorem run_typeScanFrom_laid {v : Byte} (within : i < optionsLen)
    (laid : m.slice i 3 = [OptionCode.dhcpMessageType, 1#8, v]) : (typeScanFrom optionsLen i).run m = v := by
  obtain ⟨code, len, value⟩ := Memory.slice_three.mp laid
  rw [run_typeScanFrom_typed _ _ _ within ⟨code, by rw [len]; decide⟩, value]

/-- Every other option is stepped over. -/
theorem run_typeScanFrom_skip (within : i < optionsLen) (unended : m i ≠ OptionCode.endMark)
    (untyped : ¬ typedAt m i) : (typeScanFrom optionsLen i).run m =
      (typeScanFrom optionsLen (i + 2 + (m (i + 1)).toNat)).run m := by
  conv_lhs => rw [run_typeScanFrom, if_pos within, if_neg unended, if_neg untyped]

/-- The offsets the scan reads from cursor `i` on. -/
theorem mem_reads_typeScanFrom {j : Nat} : j ∈ (typeScanFrom optionsLen i).reads m ↔
    i < optionsLen ∧ (j = i ∨ m i ≠ OptionCode.endMark ∧ (j = i + 1 ∨
      if typedAt m i then j = i + 2 else j ∈ (typeScanFrom optionsLen (i + 2 + (m (i + 1)).toNat)).reads m)) :=
  (typeScanFrom_turn m optionsLen i).2 j

end Turn

end DhcpServer
