import DhcpServer.OptionList
import DhcpServer.TypeScan

/-!
# The type scan and the option parser

`get_dhcp_message_type` and `parse_options_to_list` walk the same options, one by index and one by
pointer. On a chain of options the scan returns what its first typed option carries.
-/

namespace DhcpServer
set_option autoImplicit false
open Lib

/-- An option 53 with a value. -/
def DhcpOption.typed (opt : DhcpOption) : Bool := opt.id == OptionCode.dhcpMessageType && opt.len != 0#8

/-- `data[0]` of the first such option, zero without one. -/
def firstType (options : List DhcpOption) : Byte :=
  match options.find? DhcpOption.typed with
  | some opt => opt.data.headD 0#8
  | none => 0#8

section FirstType
variable {opt : DhcpOption} {rest : List DhcpOption}

@[simp] theorem firstType_nil : firstType [] = 0#8 := rfl

theorem firstType_typed (typed : opt.typed = true) : firstType (opt :: rest) = opt.data.headD 0#8 := by
  rw [firstType, List.find?_cons_of_pos typed]

theorem firstType_skip (untyped : ¬ opt.typed = true) : firstType (opt :: rest) = firstType rest := by
  rw [firstType, List.find?_cons_of_neg untyped, ← firstType]

end FirstType

section Scan
variable {m : Memory} {i : Nat}

theorem typed_optionAt : (optionAt m i).typed = true ↔ typedAt m i := by
  rw [DhcpOption.typed, optionAt_len, Bool.and_eq_true, beq_iff_eq, bne_iff_ne]
  rfl

/-- The first value byte lies behind the length. -/
theorem head_optionAt (typed : typedAt m i) : (optionAt m i).data.headD 0#8 = m (i + 2) := by
  obtain ⟨n, hn⟩ := Nat.exists_eq_succ_of_ne_zero (n := (m (i + 1)).toNat)
    (fun zero => typed.2 (BitVec.eq_of_toNat_eq zero))
  show (m.slice (i + 2) (m (i + 1)).toNat).headD 0#8 = m (i + 2)
  rw [hn, Memory.slice_succ]
  rfl

/-- **The scan of a chain** returns the type of its first typed option. -/
theorem run_typeScanFrom_chain {len : Nat} {options : List DhcpOption} (chain : OptionChain m len i options) :
    (typeScanFrom len i).run m = firstType options := by
  induction chain with
  | ended within mark => rw [run_typeScanFrom, if_pos within, if_pos mark, firstType_nil]
  | @next i rest unended fits _ ih =>
    have within : i < len := by omega
    by_cases typed : typedAt m i
    · rw [run_typeScanFrom_typed _ _ _ within typed, firstType_typed (typed_optionAt.mpr typed),
        head_optionAt typed]
    · rw [run_typeScanFrom_skip _ _ _ within unended typed, firstType_skip (mt typed_optionAt.mp typed), ih]

end Scan

/-- **The fast scan agrees with the full parser** on every buffer the parser accepts. -/
theorem typeScan_of_parse {m : Memory} {len : BitVec 64} {options : List DhcpOption}
    (accepted : (parseOptionsToList [] len).run m = (true, options)) :
    getDhcpMessageType m len.toNat = firstType options := by
  obtain ⟨cookie, parsed, chain⟩ := chain_of_parse (congrArg Prod.fst accepted)
  rw [run_parseOptionsToList cookie chain, List.nil_append] at accepted
  obtain ⟨-, rfl⟩ := Prod.mk.inj accepted
  exact run_typeScanFrom_chain chain

/-- An empty option 53. -/
def emptyType : DhcpOption := ⟨OptionCode.dhcpMessageType, [], no_data_bound⟩

/-- The empty option, and two with a value. -/
def repeatedTypes : List DhcpOption := emptyType :: mixedOptions ++ mixedOptions

theorem typeScan_of_parse_repeated : firstType repeatedTypes = 1#8 ∧
    getDhcpMessageType (Memory.zero.write 0 (encodeOptions repeatedTypes)) 25 = firstType repeatedTypes :=
  ⟨rfl, typeScan_of_parse (rfl : (parseOptionsToList [] 25#64).run
    (Memory.zero.write 0 (encodeOptions repeatedTypes)) = (true, repeatedTypes))⟩

end DhcpServer
