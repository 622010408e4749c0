import DhcpServer.Lib.Scan
import DhcpServer.State

/-!
# Address allocation (`is_ip_available`, `offer_ip_available`)

The allocation loop counts a 32-bit word up to `ip_last` and so need not end when `ip_last` is
the greatest word; `none` is a loop that never does. As long as no address past the cursor is
bound the loop ends at once, at `nextAddress`.
-/

namespace DhcpServer
set_option autoImplicit false
open Lib

def isIpAvailable (pool : IpPoolInd) (bindings : BindingList) (ipToCheck : BitVec 32) : Bool :=
  if ipToCheck < pool.ipFirst || ipToCheck > pool.ipLast then
    false
  else
    !bindings.any fun binding => binding.address == ipToCheck

/-- The offered address, zero for none, and the pool afterwards. -/
def offerIpAvailable (pool : IpPoolInd) (bindings : BindingList) : Option (BitVec 32 × IpPoolInd) :=
  match scan (isIpAvailable pool bindings) pool.ipLast (2 ^ 32) (pool.ipCurrent + 1) with
  | none => none
  | some none => some (0#32, pool)
  | some (some ip) => some (ip, { pool with ipCurrent := ip })

theorem isIpAvailable_iff {pool : IpPoolInd} {bindings : BindingList} {ip : BitVec 32} :
    isIpAvailable pool bindings ip = true ↔
      pool.ipFirst ≤ ip ∧ ip ≤ pool.ipLast ∧ ∀ b ∈ bindings, b.address ≠ ip := by
  unfold isIpAvailable
  split
  · rename_i outside
    simp only [Bool.or_eq_true, decide_eq_true_eq] at outside
    simp only [Bool.false_eq_true, false_iff]
    rintro ⟨low, high, -⟩
    rcases outside with below | above
    · exact absurd below (BitVec.not_lt.mpr low)
    · exact absurd above (BitVec.not_lt.mpr high)
  · rename_i inside
    simp only [Bool.or_eq_true, decide_eq_true_eq, not_or, BitVec.not_lt, gt_iff_lt] at inside
    simp [inside]

/-- Whatever is bound, an available address past the cursor makes the loop end, at the least one. -/
theorem offerIpAvailable_least {pool : IpPoolInd} {bindings : BindingList} {ip : BitVec 32}
    (past : pool.ipCurrent + 1 ≤ ip) (available : isIpAvailable pool bindings ip = true) :
    ∃ y, offerIpAvailable pool bindings = some (y, { pool with ipCurrent := y }) ∧ pool.ipCurrent + 1 ≤ y ∧
      isIpAvailable pool bindings y = true ∧
      ∀ z, pool.ipCurrent + 1 ≤ z → z < y → isIpAvailable pool bindings z = false := by
  obtain ⟨-, within, -⟩ := isIpAvailable_iff.mp available
  obtain ⟨y, found, start, -, -, holds, least⟩ := scan_exists past within available
  refine ⟨y, ?_, start, holds, least⟩
  rw [offerIpAvailable, found]

/-! ## No address past the cursor is bound -/

/-- The cursor is an upper bound of the bound addresses. -/
def CursorBounds (pool : IpPoolInd) (bindings : BindingList) : Prop :=
  ∀ b ∈ bindings, b.address ≤ pool.ipCurrent

/-- The first address of the range past the cursor. -/
def IpPoolInd.nextAddress (pool : IpPoolInd) : BitVec 32 :=
  if pool.ipCurrent < pool.ipFirst then pool.ipFirst else pool.ipCurrent + 1

section Bounded
variable {pool : IpPoolInd} {bindings : BindingList}

theorem ipCurrent_lt_nextAddress (room : pool.ipCurrent < pool.ipLast) :
    pool.ipCurrent < pool.nextAddress := by
  unfold IpPoolInd.nextAddress
  split
  · assumption
  · bv_omega

theorem nextAddress_ge (room : pool.ipCurrent < pool.ipLast) : pool.ipFirst ≤ pool.nextAddress := by
  unfold IpPoolInd.nextAddress
  split
  · exact BitVec.le_refl _
  · bv_omega

theorem nextAddress_le (room : pool.ipCurrent < pool.ipLast) (range : pool.ipFirst ≤ pool.ipLast) :
    pool.nextAddress ≤ pool.ipLast := by
  unfold IpPoolInd.nextAddress
  split
  · exact range
  · bv_omega

/-- Past the cursor an address is available when it is in the range. -/
theorem isIpAvailable_past (bounds : CursorBounds pool bindings) {ip : BitVec 32}
    (past : pool.ipCurrent < ip) :
    isIpAvailable pool bindings ip = true ↔ pool.ipFirst ≤ ip ∧ ip ≤ pool.ipLast := by
  rw [isIpAvailable_iff]
  constructor
  · rintro ⟨low, high, -⟩
    exact ⟨low, high⟩
  · rintro ⟨low, high⟩
    refine ⟨low, high, fun b member same => ?_⟩
    have := bounds b member
    rw [same] at this
    exact absurd past (BitVec.not_lt.mpr this)

/-- **A nonempty range with room left**: the offer is the next address. -/
theorem offerIpAvailable_next (bounds : CursorBounds pool bindings)
    (room : pool.ipCurrent < pool.ipLast) (range : pool.ipFirst ≤ pool.ipLast) :
    offerIpAvailable pool bindings =
      some (pool.nextAddress, { pool with ipCurrent := pool.nextAddress }) := by
  have past := ipCurrent_lt_nextAddress room
  have start : pool.ipCurrent + 1 ≤ pool.nextAddress := by bv_omega
  have within := nextAddress_le room range
  have holds := (isIpAvailable_past bounds past).mpr ⟨nextAddress_ge room, within⟩
  have least : ∀ z, pool.ipCurrent + 1 ≤ z → z < pool.nextAddress →
      isIpAvailable pool bindings z = false := by
    intro z above below
    rw [Bool.eq_false_iff]
    intro available
    have low := (isIpAvailable_iff.mp available).1
    unfold IpPoolInd.nextAddress at below
    split at below <;> bv_omega
  have found : scan (isIpAvailable pool bindings) pool.ipLast (2 ^ 32) (pool.ipCurrent + 1) =
      some (some pool.nextAddress) :=
    scan_least start within holds least (by have := pool.nextAddress.isLt; omega)
  rw [offerIpAvailable, found]

/-- An empty range offers nothing. -/
theorem offerIpAvailable_empty (empty : pool.ipLast < pool.ipFirst) :
    offerIpAvailable pool bindings = some (0#32, pool) := by
  have nowhere : ∀ z, isIpAvailable pool bindings z = false := by
    intro z
    rw [Bool.eq_false_iff]
    intro available
    obtain ⟨low, high, -⟩ := isIpAvailable_iff.mp available
    bv_omega
  have missed : scan (isIpAvailable pool bindings) pool.ipLast (2 ^ 32) (pool.ipCurrent + 1) = some none :=
    scan_miss (by bv_omega) (fun z _ _ => nowhere z) (by bv_omega)
  rw [offerIpAvailable, missed]

/-- **The two outcomes** when the cursor bounds the bound addresses and the range has room. The
loop always ends. -/
theorem offerIpAvailable_cases (bounds : CursorBounds pool bindings)
    (room : pool.ipCurrent < pool.ipLast) :
    (pool.ipLast < pool.ipFirst ∧ offerIpAvailable pool bindings = some (0#32, pool)) ∨
      (pool.ipFirst ≤ pool.ipLast ∧ offerIpAvailable pool bindings =
        some (pool.nextAddress, { pool with ipCurrent := pool.nextAddress })) := by
  by_cases empty : pool.ipLast < pool.ipFirst
  · exact Or.inl ⟨empty, offerIpAvailable_empty empty⟩
  · have range := BitVec.not_lt.mp empty
    exact Or.inr ⟨range, offerIpAvailable_next bounds room range⟩

/-- An offer is of the next address. -/
theorem offer_eq_next (bounds : CursorBounds pool bindings) (room : pool.ipCurrent < pool.ipLast)
    {ip : BitVec 32} {pool' : IpPoolInd}
    (offer : offerIpAvailable pool bindings = some (ip, pool')) (nonzero : ip ≠ 0#32) :
    pool.ipFirst ≤ pool.ipLast ∧ ip = pool.nextAddress ∧
      pool' = { pool with ipCurrent := pool.nextAddress } := by
  rcases offerIpAvailable_cases bounds room with ⟨-, miss⟩ | ⟨range, next⟩
  · rw [miss] at offer
    cases offer
    exact (nonzero rfl).elim
  · rw [next] at offer
    cases offer
    exact ⟨range, rfl, rfl⟩

/-- A missed offer leaves the pool alone. -/
theorem offer_eq_miss (bounds : CursorBounds pool bindings) (room : pool.ipCurrent < pool.ipLast)
    {pool' : IpPoolInd} (offer : offerIpAvailable pool bindings = some (0#32, pool')) : pool' = pool := by
  rcases offerIpAvailable_cases bounds room with ⟨-, miss⟩ | ⟨-, next⟩
  · rw [miss] at offer
    cases offer
    rfl
  · have past := ipCurrent_lt_nextAddress room
    rw [next] at offer
    have zero : pool.nextAddress = 0#32 := (Prod.mk.inj (Option.some.inj offer)).1
    rw [zero] at past
    bv_omega

end Bounded

end DhcpServer
