import DhcpServer.Lib.Memory
import Mathlib.Algebra.Group.Nat.Defs
import Mathlib.Data.List.Induction

/-!
# Numbers in network order

The number that bytes stand for with the highest first, and the bytes of a number at a given width.
The two are inverse to each other on the numbers that fit.
-/

namespace Lib
set_option autoImplicit false

/-- The number of some bytes, highest first. -/
def networkValue (bs : List Byte) : Nat := bs.foldl (fun v b => 256 * v + b.toNat) 0

/-- The `w` low bytes of a number, highest first. -/
def networkBytes : Nat → Nat → List Byte
  | 0, _ => []
  | w + 1, n => networkBytes w (n / 256) ++ [BitVec.ofNat 8 n]

/-- Bytes that are the same in either order. -/
def Mirrored (bs : List Byte) : Prop := bs.reverse = bs

instance (bs : List Byte) : Decidable (Mirrored bs) := inferInstanceAs (Decidable (_ = _))

section Order
variable {bs : List Byte} {b : Byte} {w n : Nat}

@[simp] theorem networkValue_concat : networkValue (bs ++ [b]) = 256 * networkValue bs + b.toNat := by
  simp [networkValue]

@[simp] theorem networkBytes_length : (networkBytes w n).length = w := by
  induction w generalizing n with
  | zero => rfl
  | succ w ih => rw [networkBytes, List.length_append, ih, List.length_singleton]

/-- A number is read back, but for what lies above its bytes. -/
theorem networkValue_networkBytes : networkValue (networkBytes w n) = n % 256 ^ w := by
  induction w generalizing n with
  | zero => rw [Nat.pow_zero, Nat.mod_one]; rfl
  | succ w ih =>
    have low : (BitVec.ofNat 8 n).toNat = n % 256 := BitVec.toNat_ofNat n 8
    rw [networkBytes, networkValue_concat, ih, low, Nat.pow_succ', Nat.mod_mul, Nat.add_comm]

/-- Bytes are written back. -/
theorem networkBytes_networkValue : networkBytes bs.length (networkValue bs) = bs := by
  induction bs using List.reverseRecOn with
  | nil => rfl
  | append_singleton bs b ih =>
    have low := b.isLt
    have quotient : (256 * networkValue bs + b.toNat) / 256 = networkValue bs := by omega
    have byte : BitVec.ofNat 8 (256 * networkValue bs + b.toNat) = b := by
      apply BitVec.eq_of_toNat_eq
      rw [BitVec.toNat_ofNat]
      omega
    rw [List.length_append, List.length_singleton, networkBytes, networkValue_concat, quotient, byte, ih]

theorem networkValue_lt : networkValue bs < 256 ^ bs.length := by
  have back := @networkValue_networkBytes bs.length (networkValue bs)
  rw [networkBytes_networkValue] at back
  rw [back]
  exact Nat.mod_lt _ (Nat.pow_pos (by decide))

theorem be32_eq_networkBytes (v : BitVec 32) : be32 v = networkBytes 4 v.toNat := by
  simp [be32, networkBytes, BitVec.extractLsb', Nat.shiftRight_eq_div_pow, Nat.div_div_eq_div_mul]

/-- **When bytes in host order are read as the number**: when they are the same in either order. -/
theorem networkValue_reverse_iff (small : n < 256 ^ w) :
    networkValue (networkBytes w n).reverse = n ↔ Mirrored (networkBytes w n) := by
  constructor
  · intro read
    have back := @networkBytes_networkValue (networkBytes w n).reverse
    rw [read, List.length_reverse, networkBytes_length] at back
    exact back.symm
  · intro mirrored
    rw [mirrored, networkValue_networkBytes, Nat.mod_eq_of_lt small]

theorem le32_eq_reverse (v : BitVec 32) : le32 v = (networkBytes 4 v.toNat).reverse := by
  rw [← be32_eq_networkBytes]
  rfl

end Order

end Lib
