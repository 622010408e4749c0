import DhcpServer.DynamicBinding

/-!
# The addresses `take_free_address` takes

Each call moves the cursor to the address behind the one it returns in the other byte order. So the range is
enumerated only when its addresses are the same in either order, and that is never so for two in a row.
-/

namespace DhcpServer
set_option autoImplicit false
open Lib

/-- The indexes after `k` calls of `take_free_address`. -/
def afterTaking (indexes : IpPoolInd) : Nat → IpPoolInd
  | 0 => indexes
  | k + 1 => (takeFreeAddress (afterTaking indexes k)).2

/-- What the next call returns then. -/
def takenAt (indexes : IpPoolInd) (k : Nat) : BitVec 32 := (takeFreeAddress (afterTaking indexes k)).1

/-- The number of addresses of a range. -/
def rangeSize (first last : BitVec 32) : Nat := last.toNat - first.toNat + 1

/-- The calls return the addresses of the range in their order, and zero from then on. -/
structure EnumeratesRange (first last : BitVec 32) : Prop where
  within : ∀ k, k < rangeSize first last → takenAt (.ofRange first last) k = first + BitVec.ofNat 32 k
  behind : ∀ k, rangeSize first last ≤ k → takenAt (.ofRange first last) k = 0#32

/-- The ranges that are enumerated. -/
inductive ShortRange (first last : BitVec 32) : Prop where
  /-- One address, not greater than in the other byte order and not the greatest of all. -/
  | one (single : first = last) (ascends : last ≤ ntohl last) (bounded : last ≠ 0xFFFFFFFF#32)
  /-- Two, the first of which is the same in the other byte order and does not end in 255. -/
  | two (next : last = first + 1) (mirrored : ntohl first = first) (low : first.toNat % 256 ≠ 255)

section Cursor
variable {indexes : IpPoolInd} {k : Nat} {first last : BitVec 32}

theorem afterTaking_ipLast : (afterTaking indexes k).ipLast = indexes.ipLast := by
  induction k with
  | zero => rfl
  | succ k ih => rw [afterTaking, (takeFreeAddress_range _).2, ih]

/-- A cursor in the range is returned and moves. -/
theorem taking_room (room : (afterTaking indexes k).ipCurrent ≤ indexes.ipLast) :
    takenAt indexes k = (afterTaking indexes k).ipCurrent ∧
      (afterTaking indexes (k + 1)).ipCurrent = ntohl (afterTaking indexes k).ipCurrent + 1 := by
  rw [← afterTaking_ipLast] at room
  rw [takenAt, afterTaking, takeFreeAddress, if_pos room]
  exact ⟨rfl, rfl⟩

/-- A cursor behind the range stays there. -/
theorem taking_past (past : indexes.ipLast < (afterTaking indexes k).ipCurrent) :
    takenAt indexes k = 0#32 ∧ (afterTaking indexes (k + 1)).ipCurrent = (afterTaking indexes k).ipCurrent := by
  rw [← afterTaking_ipLast] at past
  rw [takenAt, afterTaking, takeFreeAddress, if_neg (BitVec.not_le.mpr past)]
  exact ⟨rfl, rfl⟩

/-- So every later call returns zero. -/
theorem taken_behind (past : indexes.ipLast < (afterTaking indexes k).ipCurrent) {j : Nat} (later : k ≤ j) :
    takenAt indexes j = 0#32 := by
  have parked : (afterTaking indexes j).ipCurrent = (afterTaking indexes k).ipCurrent := by
    induction later with
    | refl => rfl
    | step _ ih => rw [(taking_past (by rw [ih]; exact past)).2, ih]
  exact (taking_past (by rw [parked]; exact past)).1

/-- What is returned tells the cursor. -/
theorem cursor_of_taken (nonzero : takenAt indexes k ≠ 0#32) :
    (afterTaking indexes k).ipCurrent = takenAt indexes k := by
  by_cases room : (afterTaking indexes k).ipCurrent ≤ indexes.ipLast
  · exact (taking_room room).1.symm
  · exact (nonzero (taking_past (BitVec.not_le.mp room)).1).elim

end Cursor

section Range
variable {first last : BitVec 32}

/-- The addresses of the range by their distance from the first. -/
theorem address_toNat {k : Nat} (within : k < rangeSize first last) (le : first ≤ last) :
    (first + BitVec.ofNat 32 k).toNat = first.toNat + k := by
  have bound := last.isLt
  have order := BitVec.le_def.mp le
  rw [rangeSize] at within
  rw [BitVec.toNat_add, BitVec.toNat_ofNat, Nat.mod_eq_of_lt (by omega : k < 2 ^ 32), Nat.mod_eq_of_lt (by omega)]

/-- Every address of the range has a distance from the first. -/
theorem address_within {a : BitVec 32} (fromFirst : first ≤ a) (toLast : a ≤ last) :
    a.toNat - first.toNat < rangeSize first last ∧ first + BitVec.ofNat 32 (a.toNat - first.toNat) = a := by
  have low := BitVec.le_def.mp fromFirst
  have high := BitVec.le_def.mp toLast
  have bound := a.isLt
  refine ⟨by rw [rangeSize]; omega, BitVec.eq_of_toNat_eq ?_⟩
  rw [BitVec.toNat_add, BitVec.toNat_ofNat, Nat.mod_eq_of_lt (by omega : a.toNat - first.toNat < 2 ^ 32),
    Nat.mod_eq_of_lt (by omega)]
  omega

/-- While the range is enumerated the cursor is the next address. -/
theorem EnumeratesRange.cursor (enumerates : EnumeratesRange first last) (nonzero : 0#32 < first) {a : BitVec 32}
    (fromFirst : first ≤ a) (toLast : a ≤ last) :
    (afterTaking (.ofRange first last) (a.toNat - first.toNat)).ipCurrent = a := by
  obtain ⟨within, address⟩ := address_within fromFirst toLast
  have taken := enumerates.within _ within
  rw [address] at taken
  have positive : a ≠ 0#32 := by bv_omega
  rw [cursor_of_taken (by rw [taken]; exact positive), taken]

/-- A cursor that goes to the next address does so as long as the addresses are the same in the other byte order. -/
theorem cursor_of_mirrored (le : first ≤ last) (mirrored : ∀ a, first ≤ a → a < last → ntohl a = a) {k : Nat}
    (within : k < rangeSize first last) :
    (afterTaking (.ofRange first last) k).ipCurrent = first + BitVec.ofNat 32 k := by
  induction k with
  | zero => exact (BitVec.add_zero first).symm
  | succ k ih =>
    have here : k < rangeSize first last := by omega
    have value := address_toNat here le
    have inside : first + BitVec.ofNat 32 k < last := by
      rw [BitVec.lt_def, value]
      rw [rangeSize] at within
      omega
    have room : (afterTaking (.ofRange first last) k).ipCurrent ≤ last := by rw [ih here]; exact BitVec.le_of_lt inside
    rw [(taking_room room).2, ih here, mirrored _ (by rw [BitVec.le_def, value]; omega) inside, BitVec.add_assoc]
    exact congrArg (first + ·) (BitVec.ofNat_add k 1).symm

/-- Calls that return zero from some call on: the cursor is behind the range. -/
theorem past_of_silent {indexes : IpPoolInd} {k : Nat} (nonzero : 0#32 < indexes.ipLast)
    (silent : ∀ j, k ≤ j → takenAt indexes j = 0#32) : indexes.ipLast < (afterTaking indexes k).ipCurrent := by
  refine BitVec.not_le.mp fun room => ?_
  have wrapped : (afterTaking indexes k).ipCurrent = 0#32 := by
    rw [← (taking_room room).1]
    exact silent k (Nat.le_refl k)
  -- a cursor that wrapped to zero is returned as if the pool were exhausted, and the next call starts at one
  have restarted : (afterTaking indexes (k + 1)).ipCurrent = 1#32 := by
    rw [(taking_room room).2, wrapped]
    rfl
  have again := (taking_room (k := k + 1) (by rw [restarted]; bv_omega)).1
  rw [silent (k + 1) (by omega), restarted] at again
  exact absurd again (by decide)

/-- The cursor behind an address, when the last conversion does not wrap. -/
theorem lt_ntohl_add_one_iff {a : BitVec 32} : a < ntohl a + 1 ↔ a ≤ ntohl a ∧ a ≠ 0xFFFFFFFF#32 := by
  constructor
  · intro past
    constructor <;> bv_omega
  · rintro ⟨ascends, bounded⟩
    have below : ntohl a ≠ 0xFFFFFFFF#32 := fun top => bounded (htonl_injective (w := 0xFFFFFFFF#32) top)
    bv_omega

/-- **When the range is enumerated**, by the byte order of all its addresses. -/
theorem enumeratesRange_iff_mirrored (nonzero : 0#32 < first) (le : first ≤ last) : EnumeratesRange first last ↔
    (∀ a, first ≤ a → a < last → ntohl a = a) ∧ last ≤ ntohl last ∧ last ≠ 0xFFFFFFFF#32 := by
  have size : rangeSize first last = last.toNat - first.toNat + 1 := rfl
  rw [← lt_ntohl_add_one_iff]
  constructor
  · intro enumerates
    have moved {a : BitVec 32} (fromFirst : first ≤ a) (toLast : a ≤ last) :
        (afterTaking (.ofRange first last) (a.toNat - first.toNat + 1)).ipCurrent = ntohl a + 1 := by
      have here := enumerates.cursor nonzero fromFirst toLast
      rw [(taking_room (by rw [here]; exact toLast)).2, here]
    constructor
    · intro a fromFirst before
      have next := enumerates.cursor nonzero (a := a + 1) (by bv_omega) (by bv_omega)
      have distance : (a + 1).toNat - first.toNat = a.toNat - first.toNat + 1 := by bv_omega
      rw [distance, moved fromFirst (BitVec.le_of_lt before)] at next
      exact (BitVec.add_left_inj 1#32).mp next
    · rw [← moved le (BitVec.le_refl last), ← size]
      exact @past_of_silent (.ofRange first last) _ (show 0#32 < last by bv_omega) enumerates.behind
  · rintro ⟨mirrored, past⟩
    have cursor {k : Nat} := cursor_of_mirrored (k := k) le mirrored
    have room {k : Nat} (within : k < rangeSize first last) :
        (afterTaking (.ofRange first last) k).ipCurrent ≤ last := by
      rw [cursor within, BitVec.le_def, address_toNat within le]
      have order := BitVec.le_def.mp le
      omega
    constructor
    · intro k within
      rw [(taking_room (room within)).1, cursor within]
    · intro k later
      have ended : last.toNat - first.toNat < rangeSize first last := by omega
      refine taken_behind ?_ later
      rw [size, (taking_room (room ended)).2, cursor ended, (address_within le (BitVec.le_refl last)).2]
      exact past

/-- The bytes of an address that is the same in the other byte order. -/
theorem mirrored_octets {a : BitVec 32} (mirrored : ntohl a = a) :
    ∃ b c, b < 256 ∧ c < 256 ∧ a.toNat = ((b * 256 + c) * 256 + c) * 256 + b := by
  obtain ⟨b, c, d, e, bounds, value, reversed⟩ := htonl_octets a
  have same := congrArg BitVec.toNat mirrored
  rw [ntohl, reversed, value] at same
  have outer : b = e := by omega
  have inner : c = d := by omega
  exact ⟨b, c, bounds.1, bounds.2.1, by rw [value, outer, inner]⟩

/-- Of two neighbours at most one is the same in the other byte order. -/
theorem ntohl_succ {a : BitVec 32} (here : ntohl a = a) (below : a < a + 1) : ntohl (a + 1) ≠ a + 1 := by
  intro next
  obtain ⟨b, c, outer, inner, value⟩ := mirrored_octets here
  obtain ⟨b', c', outer', inner', value'⟩ := mirrored_octets next
  have sum : (a + 1).toNat = a.toNat + 1 := by bv_omega
  omega

/-- The neighbour is not greater than in the other byte order unless the last byte overflows. -/
theorem le_ntohl_succ {a : BitVec 32} (here : ntohl a = a) (below : a < a + 1) :
    a + 1 ≤ ntohl (a + 1) ↔ a.toNat % 256 ≠ 255 := by
  have sum : (a + 1).toNat = a.toNat + 1 := by bv_omega
  obtain ⟨b, c, outer, inner, value⟩ := mirrored_octets here
  obtain ⟨b', c', d', e', bounds, value', reversed⟩ := htonl_octets (a + 1)
  have low : a.toNat % 256 = b := by omega
  rw [BitVec.le_def, ntohl, reversed, value', low]
  rw [value', value] at sum
  clear value low reversed value' here below
  by_cases full : b = 255
  · have wrapped : e' = 0 := by omega
    have kept : b' = 255 := by omega
    exact iff_of_false (by omega) (by omega)
  · have next : e' = b + 1 := by omega
    have kept : b' = b := by omega
    exact iff_of_true (by omega) full

/-- **The range is enumerated exactly when it is short**, in one of two ways. -/
theorem enumerates_range_iff {first last : BitVec 32} (nonzero : 0#32 < first) (le : first ≤ last) :
    EnumeratesRange first last ↔ ShortRange first last := by
  rw [enumeratesRange_iff_mirrored nonzero le]
  constructor
  · rintro ⟨mirrored, ascends, bounded⟩
    by_cases single : first = last
    · exact .one single ascends bounded
    have here := mirrored first (BitVec.le_refl first) (by bv_omega)
    have next : last = first + 1 := by
      refine Classical.byContradiction fun apart => ?_
      exact ntohl_succ here (by bv_omega) (mirrored (first + 1) (by bv_omega) (by bv_omega))
    subst next
    exact .two rfl here ((le_ntohl_succ here (by bv_omega)).mp ascends)
  · intro short
    cases short with
    | one single ascends bounded =>
      refine ⟨fun a fromFirst before => ?_, ascends, bounded⟩
      exact absurd (single ▸ fromFirst) (BitVec.not_le.mpr before)
    | two next mirrored low =>
      subst next
      refine ⟨fun a fromFirst before => ?_, (le_ntohl_succ mirrored (by bv_omega)).mpr low, ?_⟩
      · have same : a = first := by bv_omega
        rw [same]
        exact mirrored
      · intro top
        have below : first = 0xFFFFFFFE#32 := by bv_omega
        rw [below] at mirrored
        exact absurd mirrored (by decide)

end Range

/-- A range of two addresses that is enumerated: 1.2.2.1 and 1.2.2.2. -/
theorem enumerates_two : EnumeratesRange 0x01020201#32 0x01020202#32 :=
  (enumerates_range_iff (by decide) (by decide)).mpr (.two (by decide) (by decide) (by decide))

/-- From 192.168.1.15 to 192.168.1.20 the second address taken is 15.1.168.193. -/
theorem second_address_outside : takenAt (.ofRange 0xC0A8010F#32 0xC0A80114#32) 1 = 0x0F01A8C1#32 ∧
    ¬ EnumeratesRange 0xC0A8010F#32 0xC0A80114#32 := by
  have taken : takenAt (.ofRange 0xC0A8010F#32 0xC0A80114#32) 1 = 0x0F01A8C1#32 := by decide
  refine ⟨taken, fun enumerates => ?_⟩
  rw [enumerates.within 1 (by decide)] at taken
  exact absurd taken (by decide)

end DhcpServer
