import DhcpServer.Lib.NetworkOrder
import DhcpServer.StoredOptions
import Mathlib.Algebra.Group.Int.Defs

/-!
# Numeric options (`parse_byte`, `parse_short`, `parse_long`)

The numeric parsers copy their number as the host has it in memory, lowest byte first; the replies
shift theirs out highest byte first. A number reaches the wire intact when its bytes are the same in
either order.
-/

namespace DhcpServer
set_option autoImplicit false
open Lib

/-- The bytes of a number, for the parsers of one number. -/
def OptionParser.width : OptionParser → Option Nat
  | .byte => some 1
  | .short => some 2
  | .long => some 4
  | .byteList | .shortList | .string | .ip | .ipList => none

/-- If `parse_option` stores the number at all, then in `w` bytes that are the number in network order. -/
def ReachesWire (opt : DhcpOption) (name : String) (n : Int) (w : Nat) : Prop :=
  (parseOption opt name (decimal n)).1 ≠ 0#8 →
    (parseOption opt name (decimal n)).2.data.length = w ∧
      (networkValue (parseOption opt name (decimal n)).2.data : Int) = n

/-- The value of option 51 among the option bytes of an OFFER or an ACK. -/
def leaseTimeField (options : List Byte) : List Byte := (options.drop 9).take 4

/-- The bytes `parse_option` stores for the maximal lease time are those of both replies. -/
def SameLeaseTime (opt : DhcpOption) (config : DhcpConfig) : Prop :=
  (parseOption opt "IP_ADDRESS_LEASE_TIME" (decimal config.maxLeaseTime.toInt)).2.data =
      leaseTimeField (offerOptions config) ∧
    (parseOption opt "IP_ADDRESS_LEASE_TIME" (decimal config.maxLeaseTime.toInt)).2.data =
      leaseTimeField (ackOptions config)

section Numeric
variable {f : OptionParser} {w : Nat} {n : Int}

theorem le16_eq_reverse (v : BitVec 16) : le16 v = (networkBytes 2 v.toNat).reverse := by
  simp [le16, networkBytes, BitVec.extractLsb', Nat.shiftRight_eq_div_pow]

/-- What a numeric parser makes of a number: the bytes of some number in host order, and of the number
itself when it fits. -/
theorem parse_decimal (numeric : f.width = some w) (n : Int) : ∃ m,
    f.parse (decimal n) = (networkBytes w m).reverse ∧ (0 ≤ n → n < 256 ^ w → (m : Int) = n) := by
  have fits : ∀ {k : Nat}, k ≤ 32 → 0 ≤ n → n < ((2 ^ k : Nat) : Int) →
      ((BitVec.ofInt k (clampLong n)).toNat : Int) = n := by
    intro k narrow low high
    have word : 2 ^ k ≤ 2 ^ 32 := Nat.pow_le_pow_right (by decide) narrow
    rw [clampLong_eq (by omega) (by omega), BitVec.toNat_ofInt, Int.emod_eq_of_lt low high]
    omega
  cases f with
  | byte =>
    cases numeric
    refine ⟨(BitVec.ofInt 8 (clampLong n)).toNat, ?_, fun low high => fits (by decide) low high⟩
    show [BitVec.ofInt 8 (strtolAuto (decimal n))] = _
    rw [strtolAuto_decimal, networkBytes, BitVec.ofNat_toNat, BitVec.setWidth_eq]
    rfl
  | short =>
    cases numeric
    refine ⟨(BitVec.ofInt 16 (clampLong n)).toNat, ?_, fun low high => fits (by decide) low high⟩
    show le16 (BitVec.ofInt 16 (strtolAuto (decimal n))) = _
    rw [strtolAuto_decimal, le16_eq_reverse]
  | long =>
    cases numeric
    refine ⟨(BitVec.ofInt 32 (clampLong n)).toNat, ?_, fun low high => fits (by decide) low high⟩
    show le32 (BitVec.ofInt 32 (strtolAuto (decimal n))) = _
    rw [strtolAuto_decimal, le32_eq_reverse]
  | byteList => cases numeric
  | shortList => cases numeric
  | string => cases numeric
  | ip => cases numeric
  | ipList => cases numeric

theorem width_bounds (numeric : f.width = some w) : 0 < w ∧ w < 256 := by
  cases f <;> cases numeric <;> decide

/-- The number arrives when it fits and its bytes are the same in either order. -/
theorem reachesWire_iff {name : String} {info : OptionInfo} (selects : Selects name info f)
    (numeric : f.width = some w) (opt : DhcpOption) (n : Int) :
    ReachesWire opt name n w ↔ 0 ≤ n ∧ n < 256 ^ w ∧ Mirrored (networkBytes w n.toNat) := by
  obtain ⟨m, parsed, number⟩ := parse_decimal numeric n
  obtain ⟨positive, narrow⟩ := width_bounds numeric
  have length : (f.parse (decimal n)).length = w := by rw [parsed, List.length_reverse, networkBytes_length]
  obtain ⟨returned, -, data⟩ := parseOption_stored selects opt (decimal n) (by omega) (by omega)
  have stores : (parseOption opt name (decimal n)).1 ≠ 0#8 := by
    rw [returned]
    exact selects.id_ne_zero
  have power : ((256 ^ w : Nat) : Int) = 256 ^ w := Int.natCast_pow 256 w
  have small : 0 ≤ n → n < 256 ^ w → n.toNat < 256 ^ w := fun low high => by
    rw [← power] at high
    exact (Int.toNat_lt low).mpr high
  rw [ReachesWire, data, length, parsed]
  constructor
  · intro reaches
    obtain ⟨-, read⟩ := reaches stores
    have bound := @networkValue_lt (networkBytes w m).reverse
    rw [List.length_reverse, networkBytes_length] at bound
    have low : 0 ≤ n := by omega
    have high : n < 256 ^ w := by
      rw [← power, ← read]
      exact Int.ofNat_lt.mpr bound
    obtain rfl : m = n.toNat := by
      have := number low high
      omega
    refine ⟨low, high, (networkValue_reverse_iff (small low high)).mp ?_⟩
    omega
  · rintro ⟨low, high, mirrored⟩ -
    obtain rfl : m = n.toNat := by
      have := number low high
      omega
    have read := (networkValue_reverse_iff (small low high)).mpr mirrored
    exact ⟨rfl, by omega⟩

theorem selects_leaseTime : Selects "IP_ADDRESS_LEASE_TIME" ⟨51, "IP_ADDRESS_LEASE_TIME", some .long⟩ .long :=
  ⟨rfl, rfl⟩

/-- Both replies carry the lease time in network order, the option in host order. -/
theorem sameLeaseTime_iff (opt : DhcpOption) (config : DhcpConfig) :
    SameLeaseTime opt config ↔ Mirrored (networkBytes 4 config.maxLeaseTime.toNat) := by
  have word : BitVec.ofInt 32 (clampLong config.maxLeaseTime.toInt) = config.maxLeaseTime := by
    have low := config.maxLeaseTime.le_toInt
    have high := config.maxLeaseTime.toInt_lt
    rw [clampLong_eq (by omega) (by omega), BitVec.ofInt_toInt]
  have parsed : OptionParser.long.parse (decimal config.maxLeaseTime.toInt) = le32 config.maxLeaseTime := by
    show le32 (BitVec.ofInt 32 (strtolAuto _)) = _
    rw [strtolAuto_decimal, word]
  have length : (OptionParser.long.parse (decimal config.maxLeaseTime.toInt)).length = 4 := by
    rw [parsed, le32_length]
  obtain ⟨-, -, data⟩ :=
    parseOption_stored selects_leaseTime opt (decimal config.maxLeaseTime.toInt) (by omega) (by omega)
  have offer : leaseTimeField (offerOptions config) = be32 config.maxLeaseTime := by
    rw [offerOptions, intOctets_eq]
    rfl
  have ack : leaseTimeField (ackOptions config) = be32 config.maxLeaseTime := by
    rw [ackOptions, intOctets_eq]
    rfl
  rw [SameLeaseTime, data, parsed, offer, ack, and_self, le32_eq_reverse, be32_eq_networkBytes]
  exact Iff.rfl

/-- **When a number reaches the wire intact**: when it fits and its bytes are the same in either order.
The maximal lease time is then the same in the option and in the replies. -/
theorem numeric_intact_iff {name : String} {info : OptionInfo} (selects : Selects name info f)
    (numeric : f.width = some w) (opt : DhcpOption) (n : Int) (config : DhcpConfig) :
    (ReachesWire opt name n w ↔ 0 ≤ n ∧ n < 256 ^ w ∧ Mirrored (networkBytes w n.toNat)) ∧
      (SameLeaseTime opt config ↔ Mirrored (networkBytes 4 config.maxLeaseTime.toNat)) :=
  ⟨reachesWire_iff selects numeric opt n, sameLeaseTime_iff opt config⟩

/-- One byte is the same in either order, two bytes 1 are not. -/
theorem numeric_intact_flag : ReachesWire blankOption "IP_FORWARDING" 1 1 ∧
    ¬ ReachesWire blankOption "INTERFACE_MTU" 1 2 := by
  have forwarding : Selects "IP_FORWARDING" ⟨19, "IP_FORWARDING", some .byte⟩ .byte := ⟨rfl, rfl⟩
  have mtu : Selects "INTERFACE_MTU" ⟨26, "INTERFACE_MTU", some .short⟩ .short := ⟨rfl, rfl⟩
  constructor
  · exact (numeric_intact_iff forwarding rfl blankOption 1 lanConfig).1.mpr (by decide)
  · intro reaches
    exact absurd ((numeric_intact_iff mtu rfl blankOption 1 lanConfig).1.mp reaches) (by decide)

/-- Two hours go out as 538705920 seconds. -/
theorem lease_time_reversed :
    (parseOption blankOption "IP_ADDRESS_LEASE_TIME" (decimal 7200)).2.data = [0x20#8, 0x1C#8, 0#8, 0#8] ∧
      leaseTimeField (offerOptions lanConfig) = [0#8, 0#8, 0x1C#8, 0x20#8] ∧
      ¬ ReachesWire blankOption "IP_ADDRESS_LEASE_TIME" 7200 4 ∧ ¬ SameLeaseTime blankOption lanConfig := by
  have parsed : OptionParser.long.parse (decimal 7200) = [0x20#8, 0x1C#8, 0#8, 0#8] := rfl
  obtain ⟨-, -, data⟩ :=
    parseOption_stored selects_leaseTime blankOption (decimal 7200) (by rw [parsed]; decide) (by rw [parsed]; decide)
  refine ⟨data.trans parsed, by decide, fun reaches => ?_, fun same => ?_⟩
  · exact absurd ((reachesWire_iff selects_leaseTime rfl blankOption 7200).mp reaches) (by decide)
  · exact absurd ((sameLeaseTime_iff blankOption lanConfig).mp same) (by decide)

end Numeric

end DhcpServer
