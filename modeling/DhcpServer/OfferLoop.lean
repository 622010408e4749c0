import DhcpServer.Client

/-!
# What `offer_ip_available` finds

`Offers` lists how the loop can end, whatever the pool and the bindings: at the least free address
past the cursor; past `ip_last`; or, when the counter wraps, at an address behind the cursor or
not at all. The counter wraps where `ip_last` is the greatest word, and before its first test where
the cursor is.
-/

namespace DhcpServer
set_option autoImplicit false
open Lib

/-- An address of the range that no binding has. -/
def Free (pool : IpPoolInd) (bindings : BindingList) (a : BitVec 32) : Prop :=
  pool.ipFirst ≤ a ∧ a ≤ pool.ipLast ∧ ∀ b ∈ bindings, b.address ≠ a

theorem free_iff {pool : IpPoolInd} {bindings : BindingList} {a : BitVec 32} :
    Free pool bindings a ↔ isIpAvailable pool bindings a = true :=
  isIpAvailable_iff.symm

instance (pool : IpPoolInd) (bindings : BindingList) (a : BitVec 32) : Decidable (Free pool bindings a) :=
  decidable_of_iff _ isIpAvailable_iff

/-- A free address past the cursor. -/
def FreePast (pool : IpPoolInd) (bindings : BindingList) (a : BitVec 32) : Prop :=
  pool.ipCurrent < a ∧ Free pool bindings a

/-- The results of `offerIpAvailable`. -/
inductive Offers (pool : IpPoolInd) (bindings : BindingList) : Option (BitVec 32 × IpPoolInd) → Prop where
  | past {a : BitVec 32} (free : FreePast pool bindings a)
      (least : ∀ z, z < a → ¬ FreePast pool bindings z) :
      Offers pool bindings (some (a, { pool with ipCurrent := a }))
  | missed (spent : ∀ z, ¬ FreePast pool bindings z) (last : pool.ipLast ≠ 0xFFFFFFFF#32)
      (unwrapped : pool.ipCurrent ≠ 0xFFFFFFFF#32 ∨ ∀ z, ¬ Free pool bindings z) :
      Offers pool bindings (some (0#32, pool))
  | around {a : BitVec 32} (spent : ∀ z, ¬ FreePast pool bindings z)
      (wraps : pool.ipLast = 0xFFFFFFFF#32 ∨ pool.ipCurrent = 0xFFFFFFFF#32)
      (free : Free pool bindings a) (least : ∀ z, z < a → ¬ Free pool bindings z) :
      Offers pool bindings (some (a, { pool with ipCurrent := a }))
  | forever (last : pool.ipLast = 0xFFFFFFFF#32) (full : ∀ z, ¬ Free pool bindings z) :
      Offers pool bindings none

section Loop
variable {pool : IpPoolInd} {bindings : BindingList}

theorem not_free_iff {a : BitVec 32} : ¬ Free pool bindings a ↔ isIpAvailable pool bindings a = false := by
  rw [free_iff, Bool.not_eq_true]

/-- Up to the greatest word, the addresses past the cursor are those from the next one on. -/
theorem past_iff (room : pool.ipCurrent ≠ 0xFFFFFFFF#32) {a : BitVec 32} :
    pool.ipCurrent < a ↔ pool.ipCurrent + 1 ≤ a := by
  bv_omega

theorem offers_past {a : BitVec 32} (free : FreePast pool bindings a) :
    Offers pool bindings (offerIpAvailable pool bindings) := by
  have room : pool.ipCurrent ≠ 0xFFFFFFFF#32 := by
    intro top
    have above := free.1
    rw [top] at above
    bv_omega
  obtain ⟨y, offered, start, available, least⟩ :=
    offerIpAvailable_least ((past_iff room).mp free.1) (free_iff.mp free.2)
  rw [offered]
  refine .past ⟨(past_iff room).mpr start, free_iff.mpr available⟩ fun z below past => ?_
  exact not_free_iff.mpr (least z ((past_iff room).mp past.1) below) past.2

/-- The counter starts past every free address and ends behind them. -/
theorem offers_around (spent : ∀ z, ¬ FreePast pool bindings z)
    (wraps : pool.ipLast = 0xFFFFFFFF#32 ∨ pool.ipCurrent = 0xFFFFFFFF#32) {a : BitVec 32}
    (free : Free pool bindings a) : Offers pool bindings (offerIpAvailable pool bindings) := by
  obtain ⟨y, available, -, least⟩ := scan_exists_least (free_iff.mp free)
  have found : scan (isIpAvailable pool bindings) pool.ipLast (2 ^ 32) (pool.ipCurrent + 1) = some (some y) := by
    by_cases top : pool.ipCurrent = 0xFFFFFFFF#32
    · -- the first test is at zero
      have start : pool.ipCurrent + 1 = 0#32 := by rw [top]; rfl
      rw [start]
      apply scan_least
      · exact BitVec.le_def.mpr (by simp)
      · exact (isIpAvailable_iff.mp available).2.1
      · exact available
      · exact fun z _ below => least z below
      · exact Nat.lt_of_le_of_lt (Nat.sub_le _ _) y.isLt
    · have last : pool.ipLast = 0xFFFFFFFF#32 := wraps.resolve_right top
      apply scan_behind
      · rw [last]
        rfl
      · intro z above
        exact not_free_iff.mp fun free => spent z ⟨(past_iff top).mpr above, free⟩
      · exact available
      · exact least
  rw [offerIpAvailable, found]
  exact .around spent wraps (free_iff.mpr available) fun z below => not_free_iff.mpr (least z below)

theorem offers_missed (spent : ∀ z, ¬ FreePast pool bindings z) (last : pool.ipLast ≠ 0xFFFFFFFF#32)
    (unwrapped : pool.ipCurrent ≠ 0xFFFFFFFF#32 ∨ ∀ z, ¬ Free pool bindings z) :
    Offers pool bindings (offerIpAvailable pool bindings) := by
  have room : pool.ipLast.toNat + 1 < 2 ^ 32 := by bv_omega
  have missed : scan (isIpAvailable pool bindings) pool.ipLast (2 ^ 32) (pool.ipCurrent + 1) = some none := by
    apply scan_miss room
    · intro z above _
      refine not_free_iff.mp fun free => ?_
      rcases unwrapped with low | full
      · exact spent z ⟨(past_iff low).mpr above, free⟩
      · exact full z free
    · omega
  rw [offerIpAvailable, missed]
  exact .missed spent last unwrapped

/-- **How the loop ends**, in every state of pool and bindings. -/
theorem offerIpAvailable_offers (pool : IpPoolInd) (bindings : BindingList) :
    Offers pool bindings (offerIpAvailable pool bindings) := by
  by_cases past : ∃ a, FreePast pool bindings a
  · obtain ⟨a, free⟩ := past
    exact offers_past free
  · have spent : ∀ z, ¬ FreePast pool bindings z := fun z free => past ⟨z, free⟩
    by_cases some : ∃ a, Free pool bindings a
    · obtain ⟨a, free⟩ := some
      by_cases wraps : pool.ipLast = 0xFFFFFFFF#32 ∨ pool.ipCurrent = 0xFFFFFFFF#32
      · exact offers_around spent wraps free
      · exact offers_missed spent (fun last => wraps (Or.inl last)) (Or.inl fun top => wraps (Or.inr top))
    · have full : ∀ z, ¬ Free pool bindings z := fun z free => some ⟨z, free⟩
      by_cases last : pool.ipLast = 0xFFFFFFFF#32
      · have never : scan (isIpAvailable pool bindings) pool.ipLast (2 ^ 32) (pool.ipCurrent + 1) = none := by
          apply scan_never
          · rw [last]
            rfl
          · exact fun z => not_free_iff.mp (full z)
        rw [offerIpAvailable, never]
        exact .forever last full
      · exact offers_missed spent last (Or.inr full)

/-- The loop ends and offers the least free address past the cursor, or nothing and the pool stays. -/
structure OffersLeast (pool : IpPoolInd) (bindings : BindingList) : Prop where
  terminates : offerIpAvailable pool bindings ≠ none
  least : ∀ a, FreePast pool bindings a → (∀ z, z < a → ¬ FreePast pool bindings z) →
    offerIpAvailable pool bindings = some (a, { pool with ipCurrent := a })
  otherwise : (∀ a, ¬ FreePast pool bindings a) → offerIpAvailable pool bindings = some (0#32, pool)

/-- An offer of the least free address past the cursor, where there is one. -/
theorem offersLeast_of_past {a : BitVec 32} (free : FreePast pool bindings a) : OffersLeast pool bindings := by
  have result := offerIpAvailable_offers pool bindings
  generalize offered : offerIpAvailable pool bindings = r at result
  cases result with
  | @past y hit least =>
    refine ⟨by simp [offered], fun z free' least' => ?_, fun spent => (spent y hit).elim⟩
    have same : y = z := by
      apply BitVec.le_antisymm
      · exact BitVec.not_lt.mp fun below => least z below free'
      · exact BitVec.not_lt.mp fun below => least' y below hit
    rw [offered, same]
  | missed spent => exact (spent a free).elim
  | around spent => exact (spent a free).elim
  | forever _ full => exact (full a free.2).elim

/-- Where nothing is free past the cursor, the loop must offer nothing. -/
theorem offersLeast_spent (spent : ∀ z, ¬ FreePast pool bindings z) :
    OffersLeast pool bindings ↔ offerIpAvailable pool bindings = some (0#32, pool) := by
  constructor
  · intro inv
    exact inv.otherwise spent
  · intro missed
    exact ⟨by simp [missed], fun a free => (spent a free).elim, fun _ => missed⟩

/-- **When `offer_ip_available` offers the least free address past the cursor**: there is one; or the
counter cannot wrap on the way to `ip_last`, or finds nothing free when it does; or it comes back to
the cursor's own address zero, which stands for no offer. -/
theorem offersLeast_iff : OffersLeast pool bindings ↔
    (∃ a, FreePast pool bindings a) ∨
    (pool.ipLast ≠ 0xFFFFFFFF#32 ∧ (pool.ipCurrent ≠ 0xFFFFFFFF#32 ∨ ∀ a, ¬ Free pool bindings a)) ∨
    (pool.ipCurrent = 0#32 ∧ Free pool bindings 0#32) := by
  by_cases past : ∃ a, FreePast pool bindings a
  · obtain ⟨a, free⟩ := past
    exact iff_of_true (offersLeast_of_past free) (Or.inl ⟨a, free⟩)
  · have spent : ∀ z, ¬ FreePast pool bindings z := fun z free => past ⟨z, free⟩
    rw [offersLeast_spent spent, or_iff_right past]
    have result := offerIpAvailable_offers pool bindings
    generalize offerIpAvailable pool bindings = r at result
    cases result with
    | past hit => exact (past ⟨_, hit⟩).elim
    | missed _ last unwrapped => exact iff_of_true rfl (Or.inl ⟨last, unwrapped⟩)
    | @around a _ wraps free least =>
      constructor
      · intro missed
        obtain ⟨rfl, same⟩ := Prod.mk.inj (Option.some.inj missed)
        exact Or.inr ⟨(congrArg IpPoolInd.ipCurrent same).symm, free⟩
      · rintro (⟨last, unwrapped⟩ | ⟨cursor, zero⟩)
        · rcases unwrapped with low | full
          · exact (wraps.elim last low).elim
          · exact (full a free).elim
        · have same : a = 0#32 := by
            have := mt (least 0#32) (not_not_intro zero)
            bv_omega
          rw [same, ← cursor]
    | forever last full =>
      constructor
      · nofun
      · rintro (⟨low, -⟩ | ⟨-, zero⟩)
        · exact (low last).elim
        · exact (full 0#32 zero).elim

end Loop

/-- The range of the one address 255.255.255.255. -/
def greatestPool : IpPoolInd := .ofRange 0xFFFFFFFF#32 0xFFFFFFFF#32

/-- That address, leased. -/
def greatestBound : BindingList := [newBinding (discover macA).turn lanConfig 0xFFFFFFFF#32]

/-- With the address bound the loop has nothing to stop at, and its condition never fails. -/
theorem greatestPool_endless : greatestPool.ipFirst ≤ greatestPool.ipLast ∧
    (∀ fuel, scan (isIpAvailable greatestPool greatestBound) greatestPool.ipLast fuel
      (greatestPool.ipCurrent + 1) = none) ∧
    ¬ OffersLeast greatestPool greatestBound := by
  have full : ∀ z, isIpAvailable greatestPool greatestBound z = false := by
    intro z
    refine not_free_iff.mp fun ⟨low, high, unbound⟩ => unbound _ (List.mem_singleton_self _) ?_
    exact BitVec.le_antisymm low high
  have never : ∀ fuel, scan (isIpAvailable greatestPool greatestBound) greatestPool.ipLast fuel
      (greatestPool.ipCurrent + 1) = none := fun fuel => scan_never rfl full
  refine ⟨BitVec.le_refl _, never, fun inv => inv.terminates ?_⟩
  rw [offerIpAvailable, never]

end DhcpServer
