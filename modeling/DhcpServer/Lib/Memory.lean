import Mathlib.Tactic.Common

/-!
# Byte memory

A memory is a byte function of the offset from some base pointer. A struct is read through
its field offsets, so a copy that runs past one field lands in the next, as it does in C.
Words are little-endian, the order of the host.
-/

namespace Lib
set_option autoImplicit false

abbrev Byte := BitVec 8

/-- The bytes at and above a base pointer. -/
abbrev Memory := Nat → Byte

namespace Memory

/-- What `memset(p, 0, n)` leaves. -/
def zero : Memory := fun _ => 0#8

/-- Overwrite the bytes from offset `a` on with `bs` (`memcpy` into the memory). -/
def write (m : Memory) (a : Nat) (bs : List Byte) : Memory :=
  fun i => if a ≤ i then (bs[i - a]?).getD (m i) else m i

/-- The `n` bytes at offset `a` (`memcpy` out of the memory). -/
def slice (m : Memory) (a n : Nat) : List Byte := (List.range n).map fun k => m (a + k)

/-- The memory seen from a pointer to offset `a`. -/
def shift (m : Memory) (a : Nat) : Memory := fun i => m (a + i)

@[simp] theorem zero_apply (i : Nat) : zero i = 0#8 := rfl

@[simp] theorem shift_apply (m : Memory) (a i : Nat) : m.shift a i = m (a + i) := rfl

theorem shift_slice (m : Memory) (a b n : Nat) : (m.shift a).slice b n = m.slice (a + b) n := by
  simp [slice, Nat.add_assoc]

@[simp] theorem slice_length (m : Memory) (a n : Nat) : (m.slice a n).length = n := by
  simp [slice]

theorem slice_getElem? (m : Memory) (a n i : Nat) :
    (m.slice a n)[i]? = if i < n then some (m (a + i)) else none := by
  unfold slice
  split <;> simp_all

theorem slice_succ (m : Memory) (a n : Nat) : m.slice a (n + 1) = m a :: m.slice (a + 1) n := by
  simp [slice, List.range_succ_eq_map, Nat.add_comm, Nat.add_left_comm]

theorem slice_append (m : Memory) (a n k : Nat) : m.slice a (n + k) = m.slice a n ++ m.slice (a + n) k := by
  induction n generalizing a with
  | zero => simp [slice]
  | succ n ih =>
    rw [Nat.succ_add, slice_succ, ih, slice_succ, List.cons_append, Nat.add_assoc a 1 n, Nat.add_comm 1 n]

theorem slice_eq_zeros {m : Memory} {a n : Nat} :
    m.slice a n = List.replicate n 0#8 ↔ ∀ k, k < n → m (a + k) = 0#8 := by
  rw [List.eq_replicate_iff, slice_length]
  simp [slice]

theorem slice_congr {m m' : Memory} {a n : Nat} (same : ∀ k, k < n → m' (a + k) = m (a + k)) :
    m'.slice a n = m.slice a n :=
  List.map_congr_left fun k member => same k (List.mem_range.mp member)

theorem byte_of_slice_eq {m m' : Memory} {a n k : Nat} (same : m'.slice a n = m.slice a n) (inside : k < n) :
    m' (a + k) = m (a + k) := by
  have entry := congrArg (fun bs : List Byte => bs[k]?) same
  simpa only [slice_getElem?, inside, if_true, Option.some.injEq] using entry

/-- Parts of equal slices are equal. -/
theorem slice_within {m m' : Memory} {a n b k : Nat} (same : m'.slice a n = m.slice a n) (low : a ≤ b)
    (high : b + k ≤ a + n) : m'.slice b k = m.slice b k := by
  apply slice_congr
  intro j bound
  obtain ⟨d, rfl⟩ := Nat.exists_eq_add_of_le low
  rw [Nat.add_assoc]
  exact byte_of_slice_eq same (by omega)

/-- A slice is a list when its bytes are. -/
theorem slice_eq_of_getD {m : Memory} {a : Nat} {bs : List Byte}
    (bytes : ∀ k, k < bs.length → m (a + k) = bs.getD k 0#8) : m.slice a bs.length = bs := by
  apply List.ext_getElem (slice_length m a _)
  intro k hk hk'
  simp [slice, bytes k hk', hk']

theorem slice_three {m : Memory} {i : Nat} {x y z : Byte} :
    m.slice i 3 = [x, y, z] ↔ m i = x ∧ m (i + 1) = y ∧ m (i + 2) = z := by
  simp [slice, List.range_succ]

/-- A write changes nothing below it. -/
theorem write_below (m : Memory) (a : Nat) (bs : List Byte) {i : Nat} (below : i < a) :
    m.write a bs i = m i := by
  simp [write, Nat.not_le.mpr below]

/-- A write changes nothing past its last byte. -/
theorem write_above (m : Memory) (a : Nat) (bs : List Byte) {i : Nat} (above : a + bs.length ≤ i) :
    m.write a bs i = m i := by
  have past : bs[i - a]? = none := List.getElem?_eq_none (by omega)
  simp [write, past]

/-- A write stores its bytes. -/
theorem write_inside (m : Memory) (a : Nat) (bs : List Byte) {i : Nat} (inside : i < bs.length) :
    m.write a bs (a + i) = bs[i] := by
  simp [write, inside]

/-- Two adjacent writes are one. -/
theorem write_append (m : Memory) (a : Nat) (front back : List Byte) :
    (m.write a front).write (a + front.length) back = m.write a (front ++ back) := by
  funext i
  by_cases low : i < a
  · rw [write_below _ _ _ low, write_below _ _ _ (by omega), write_below _ _ _ low]
  · obtain ⟨k, rfl⟩ := Nat.exists_eq_add_of_le (Nat.le_of_not_lt low)
    by_cases first : k < front.length
    · rw [write_below _ _ _ (by omega)]
      simp [write, List.getElem?_append_left first]
    · obtain ⟨j, rfl⟩ := Nat.exists_eq_add_of_le (Nat.le_of_not_lt first)
      have past : front[front.length + j]? = none := List.getElem?_eq_none (Nat.le_add_right _ _)
      have index : a + (front.length + j) - (a + front.length) = j := by omega
      have index' : front.length + j - front.length = j := Nat.add_sub_cancel_left _ _
      have above : a + front.length ≤ a + (front.length + j) := by omega
      simp only [write, index, above, Nat.le_add_right, if_true, Nat.add_sub_cancel_left, past,
        Option.getD_none, List.getElem?_append_right, index']

/-- What was written is read back. -/
theorem slice_write_same (m : Memory) (a : Nat) (bs : List Byte) :
    (m.write a bs).slice a bs.length = bs := by
  apply List.ext_getElem (by simp)
  intro i hi hj
  simp [slice, write_inside m a bs hj]

/-- A part of what was written is read back. -/
theorem slice_write_middle (m : Memory) (a : Nat) (front bs back : List Byte) :
    (m.write a (front ++ bs ++ back)).slice (a + front.length) bs.length = bs := by
  apply List.ext_getElem (by simp)
  intro i hi hj
  have inside : front.length + i < (front ++ bs ++ back).length := by
    simp only [List.length_append]
    omega
  simp only [slice, List.getElem_map, List.getElem_range, Nat.add_assoc, write_inside m a _ inside]
  rw [List.getElem_append_left (by simp only [List.length_append]; omega),
    List.getElem_append_right (by omega)]
  simp only [Nat.add_sub_cancel_left]

/-- A read apart from the written window sees the old bytes. -/
theorem slice_write_apart (m : Memory) (a : Nat) (bs : List Byte) {b n : Nat}
    (apart : b + n ≤ a ∨ a + bs.length ≤ b) : (m.write a bs).slice b n = m.slice b n := by
  apply slice_congr
  intro k bound
  rcases apart with low | high
  · exact write_below m a bs (by omega)
  · exact write_above m a bs (by omega)

end Memory

/-! ## Words -/

/-- The bytes of a word in host order, lowest first. -/
def le32 (v : BitVec 32) : List Byte :=
  [v.extractLsb' 0 8, v.extractLsb' 8 8, v.extractLsb' 16 8, v.extractLsb' 24 8]

/-- The bytes of a word in network order, highest first. -/
def be32 (v : BitVec 32) : List Byte :=
  [v.extractLsb' 24 8, v.extractLsb' 16 8, v.extractLsb' 8 8, v.extractLsb' 0 8]

/-- `htonl` on a little-endian host: the four bytes reversed. -/
def htonl (v : BitVec 32) : BitVec 32 :=
  v.extractLsb' 0 8 ++ v.extractLsb' 8 8 ++ v.extractLsb' 16 8 ++ v.extractLsb' 24 8

/-- `ntohl` is the same reversal. -/
def ntohl (v : BitVec 32) : BitVec 32 := htonl v

@[simp] theorem le32_length (v : BitVec 32) : (le32 v).length = 4 := rfl

@[simp] theorem be32_length (v : BitVec 32) : (be32 v).length = 4 := rfl

@[simp] theorem ntohl_htonl (v : BitVec 32) : ntohl (htonl v) = v := by
  apply BitVec.eq_of_getLsbD_eq
  intro i hi
  simp only [ntohl, htonl, BitVec.getLsbD_append, BitVec.getLsbD_extractLsb']
  grind

theorem htonl_injective {v w : BitVec 32} (same : htonl v = htonl w) : v = w := by
  rw [← ntohl_htonl v, same, ntohl_htonl]

theorem append_byte_toNat {n : Nat} (v : BitVec n) (b : Byte) : (v ++ b).toNat = v.toNat * 256 + b.toNat := by
  rw [BitVec.toNat_append, ← Nat.shiftLeft_add_eq_or_of_lt b.isLt, Nat.shiftLeft_eq]

/-- The octets of a word, and of the word in the other byte order. -/
theorem htonl_octets (v : BitVec 32) : ∃ a b c d : Nat, (a < 256 ∧ b < 256 ∧ c < 256 ∧ d < 256) ∧
    v.toNat = ((a * 256 + b) * 256 + c) * 256 + d ∧ (htonl v).toNat = ((d * 256 + c) * 256 + b) * 256 + a := by
  refine ⟨_, _, _, _, ⟨(v.extractLsb' 24 8).isLt, (v.extractLsb' 16 8).isLt, (v.extractLsb' 8 8).isLt,
    (v.extractLsb' 0 8).isLt⟩, ?_, ?_⟩
  · have bound := v.isLt
    simp only [BitVec.extractLsb'_toNat, Nat.shiftRight_eq_div_pow]
    omega
  · simp only [htonl, append_byte_toNat]

theorem be32_injective {v w : BitVec 32} (same : be32 v = be32 w) : v = w := by
  have joined : ∀ u : BitVec 32,
      u.extractLsb' 24 8 ++ u.extractLsb' 16 8 ++ u.extractLsb' 8 8 ++ u.extractLsb' 0 8 = u := by
    intro u
    apply BitVec.eq_of_getLsbD_eq
    intro i hi
    simp only [BitVec.getLsbD_append, BitVec.getLsbD_extractLsb']
    grind
  simp only [be32, List.cons.injEq] at same
  obtain ⟨first, second, third, fourth, -⟩ := same
  rw [← joined v, ← joined w, first, second, third, fourth]

namespace Memory

/-- Load a 32-bit word in host order. -/
def load32 (m : Memory) (a : Nat) : BitVec 32 := m (a + 3) ++ m (a + 2) ++ m (a + 1) ++ m a

/-- Store a 32-bit word in host order. -/
def store32 (m : Memory) (a : Nat) (v : BitVec 32) : Memory := m.write a (le32 v)

/-- A stored word changes nothing but its four bytes. -/
theorem store32_apart (m : Memory) (a : Nat) (v : BitVec 32) {i : Nat} (apart : i < a ∨ a + 4 ≤ i) :
    m.store32 a v i = m i := by
  rcases apart with low | high
  · exact write_below m a (le32 v) low
  · exact write_above m a (le32 v) high

/-- A word load depends on its four bytes only. -/
theorem load32_congr {m m' : Memory} {a : Nat} (same : m'.slice a 4 = m.slice a 4) :
    m'.load32 a = m.load32 a := by
  have byte : ∀ k, k < 4 → m' (a + k) = m (a + k) := fun k inside => byte_of_slice_eq same inside
  simp only [load32, byte 1 (by omega), byte 2 (by omega), byte 3 (by omega)]
  rw [show m' a = m a from byte 0 (by omega)]

/-- A stored word is read back. -/
theorem load32_store32 (m : Memory) (a : Nat) (v : BitVec 32) : (m.store32 a v).load32 a = v := by
  have byte : ∀ k (hk : k < (le32 v).length), m.store32 a v (a + k) = (le32 v)[k] :=
    fun k hk => write_inside m a (le32 v) hk
  have low : m.store32 a v a = (le32 v)[0] := byte 0 (by simp)
  simp only [load32, low, byte 1 (by simp), byte 2 (by simp), byte 3 (by simp)]
  apply BitVec.eq_of_getLsbD_eq
  intro i hi
  simp only [le32, BitVec.getLsbD_append, List.getElem_cons_zero, List.getElem_cons_succ,
    BitVec.getLsbD_extractLsb']
  grind

/-- A word load apart from a write sees the old word. -/
theorem load32_write_apart (m : Memory) (a : Nat) (bs : List Byte) {b : Nat}
    (apart : b + 4 ≤ a ∨ a + bs.length ≤ b) : (m.write a bs).load32 b = m.load32 b :=
  load32_congr (slice_write_apart m a bs apart)

end Memory

end Lib
