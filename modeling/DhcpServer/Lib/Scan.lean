import Mathlib.Algebra.Group.Nat.Defs
import Mathlib.Tactic.Common

/-!
# Scanning with a machine counter

`for (x = start; x <= last; x++) if (p(x)) { found = x; break; }` over a `w`-bit unsigned
counter. The counter wraps, so with `last` the greatest value the loop condition never fails;
the scan then ends at a hit or not at all. Fuel bounds the iterations and `none` says that it
ran out; after `2 ^ w` iterations the counter is back at its start, so fuel `2 ^ w` decides
whether the loop ends.
-/

namespace Lib
set_option autoImplicit false

variable {w : Nat}

/-- The loop above: `none` out of fuel, `some none` past `last`, `some (some x)` a hit. -/
def scan (p : BitVec w → Bool) (last : BitVec w) : Nat → BitVec w → Option (Option (BitVec w))
  | 0, _ => none
  | fuel + 1, x =>
    if x ≤ last then
      if p x then some (some x) else scan p last fuel (x + 1)
    else some none

/-- The loop with a test that can go wrong, and then does the loop. -/
def scanM {m : Type → Type} [Monad m] (p : BitVec w → m Bool) (last : BitVec w) :
    Nat → BitVec w → m (Option (Option (BitVec w)))
  | 0, _ => pure none
  | fuel + 1, x => do
    if x ≤ last then
      if ← p x then pure (some (some x)) else scanM p last fuel (x + 1)
    else
      pure (some none)

/-- Where the test does not go wrong, neither does the loop. -/
theorem scanM_pure {m : Type → Type} [Monad m] [LawfulMonad m] {p : BitVec w → m Bool} {q : BitVec w → Bool}
    (tests : ∀ x, p x = pure (q x)) (last : BitVec w) (fuel : Nat) (x : BitVec w) :
    scanM p last fuel x = pure (scan q last fuel x) := by
  induction fuel generalizing x with
  | zero => rfl
  | succ fuel ih =>
    unfold scanM scan
    split
    · rw [tests, pure_bind, ih]
      cases q x <;> rfl
    · rfl

section Scan
variable {p : BitVec w → Bool} {last : BitVec w}

/-- A hit satisfies the predicate and lies within the bound. -/
theorem scan_hit {fuel : Nat} {x y : BitVec w} (found : scan p last fuel x = some (some y)) :
    p y = true ∧ y ≤ last := by
  induction fuel generalizing x with
  | zero => cases found
  | succ fuel ih =>
    unfold scan at found
    split at found
    · rename_i within
      split at found
      · rename_i holds
        cases found
        exact ⟨holds, within⟩
      · exact ih found
    · cases found

/-- Adding one below the greatest value does not wrap. -/
theorem toNat_add_one {x : BitVec w} (room : x.toNat + 1 < 2 ^ w) : (x + 1).toNat = x.toNat + 1 := by
  have positive : 1 < 2 ^ w := by omega
  rw [BitVec.toNat_add, BitVec.ofNat_eq_ofNat, BitVec.toNat_ofNat, Nat.mod_eq_of_lt positive,
    Nat.mod_eq_of_lt room]

/-- The scan stops at the least hit above its start. -/
theorem scan_least {fuel : Nat} {x y : BitVec w} (from_start : x ≤ y) (within : y ≤ last)
    (holds : p y = true) (least : ∀ z, x ≤ z → z < y → p z = false)
    (enough : y.toNat - x.toNat < fuel) : scan p last fuel x = some (some y) := by
  induction fuel generalizing x with
  | zero => omega
  | succ fuel ih =>
    have start_within : x ≤ last := BitVec.le_trans from_start within
    rw [scan, if_pos start_within]
    by_cases here : x = y
    · rw [here, if_pos holds]
    · have below : x < y := by
        have := BitVec.le_def.mp from_start
        have : x.toNat ≠ y.toNat := fun same => here (BitVec.eq_of_toNat_eq same)
        exact BitVec.lt_def.mpr (by omega)
      have next := toNat_add_one (x := x) (by have := BitVec.lt_def.mp below; have := y.isLt; omega)
      have skip : ¬ p x = true := by simp [least x (BitVec.le_refl _) below]
      rw [if_neg skip]
      have gap := BitVec.lt_def.mp below
      apply ih
      · exact BitVec.le_def.mpr (by omega)
      · intro z above below'
        exact least z (BitVec.le_def.mpr (by have := BitVec.le_def.mp above; omega)) below'
      · omega

/-- Without a hit, and short of the greatest value, the scan runs past `last`. -/
theorem scan_miss {fuel : Nat} {x : BitVec w} (room : last.toNat + 1 < 2 ^ w)
    (miss : ∀ z, x ≤ z → z ≤ last → p z = false)
    (enough : last.toNat + 1 - x.toNat < fuel) : scan p last fuel x = some none := by
  induction fuel generalizing x with
  | zero => omega
  | succ fuel ih =>
    by_cases within : x ≤ last
    · have skip : ¬ p x = true := by simp [miss x (BitVec.le_refl _) within]
      rw [scan, if_pos within, if_neg skip]
      have bound := BitVec.le_def.mp within
      have next := toNat_add_one (x := x) (by omega)
      apply ih
      · intro z above below
        exact miss z (BitVec.le_def.mpr (by have := BitVec.le_def.mp above; omega)) below
      · omega
    · rw [scan, if_neg within]

/-- Up to the greatest value, some hit above the start makes the scan end at the least one. -/
theorem scan_exists {x y : BitVec w} (from_start : x ≤ y) (within : y ≤ last) (holds : p y = true) :
    ∃ z, scan p last (2 ^ w) x = some (some z) ∧ x ≤ z ∧ z ≤ y ∧ z ≤ last ∧ p z = true ∧
      ∀ v, x ≤ v → v < z → p v = false := by
  induction hn : y.toNat using Nat.strongRecOn generalizing y with
  | ind n ih =>
    by_cases earlier : ∃ v, x ≤ v ∧ v < y ∧ p v = true
    · obtain ⟨v, above, below, hit⟩ := earlier
      have smaller := BitVec.lt_def.mp below
      obtain ⟨z, found, start, upto, inside, hz, least⟩ := ih v.toNat (by omega) above
        (BitVec.le_trans (BitVec.le_of_lt below) within) hit rfl
      exact ⟨z, found, start, BitVec.le_trans upto (BitVec.le_of_lt below), inside, hz, least⟩
    · have least : ∀ v, x ≤ v → v < y → p v = false := by
        intro v above below
        cases hv : p v with
        | false => rfl
        | true => exact (earlier ⟨v, above, below, hv⟩).elim
      refine ⟨y, ?_, from_start, (BitVec.le_refl _), within, holds, least⟩
      exact scan_least from_start within holds least (by have := y.isLt; omega)

/-! ### Wrapping around

With `last` the greatest value the loop condition never fails: past `last` the counter is zero
again, and what was below its start is scanned after all. -/

/-- With nothing to hit the scan never ends. -/
theorem scan_never {fuel : Nat} {x : BitVec w} (greatest : last.toNat + 1 = 2 ^ w)
    (miss : ∀ z, p z = false) : scan p last fuel x = none := by
  induction fuel generalizing x with
  | zero => rfl
  | succ fuel ih =>
    have within : x ≤ last := BitVec.le_def.mpr (by have := x.isLt; omega)
    have skip : ¬ p x = true := by simp [miss x]
    rw [scan, if_pos within, if_neg skip]
    exact ih

/-- Missing everything from its start on, the scan goes on at zero. -/
theorem scan_wrap {fuel : Nat} {x : BitVec w} (greatest : last.toNat + 1 = 2 ^ w)
    (miss : ∀ z, x ≤ z → p z = false) :
    scan p last (fuel + (2 ^ w - x.toNat)) x = scan p last fuel 0#w := by
  induction gap : 2 ^ w - x.toNat generalizing x with
  | zero => have := x.isLt; omega
  | succ gap' ih =>
    have within : x ≤ last := BitVec.le_def.mpr (by have := x.isLt; omega)
    have skip : ¬ p x = true := by simp [miss x (BitVec.le_refl _)]
    rw [← Nat.add_assoc, scan, if_pos within, if_neg skip]
    by_cases more : x.toNat + 1 < 2 ^ w
    · have next := toNat_add_one more
      apply ih
      · intro z above
        exact miss z (BitVec.le_def.mpr (by have := BitVec.le_def.mp above; omega))
      · omega
    · have wraps : x + 1 = 0#w := by
        apply BitVec.eq_of_toNat_eq
        have full : x.toNat + 1 = 2 ^ w := by have := x.isLt; omega
        rw [BitVec.toNat_add, BitVec.ofNat_eq_ofNat, BitVec.toNat_ofNat, Nat.add_mod_mod, full, Nat.mod_self,
          BitVec.toNat_ofNat, Nat.zero_mod]
      have done : gap' = 0 := by omega
      rw [wraps, done, Nat.add_zero]

/-- Hits below the start only: the scan ends at the least of them, after wrapping around. -/
theorem scan_behind {x y : BitVec w} (greatest : last.toNat + 1 = 2 ^ w)
    (miss : ∀ z, x ≤ z → p z = false) (holds : p y = true) (least : ∀ z, z < y → p z = false) :
    scan p last (2 ^ w) x = some (some y) := by
  have behind : y < x := by
    apply BitVec.not_le.mp
    intro ahead
    rw [miss y ahead] at holds
    cases holds
  have gap := BitVec.lt_def.mp behind
  have fuel : 2 ^ w = x.toNat + (2 ^ w - x.toNat) := by have := x.isLt; omega
  rw [fuel, scan_wrap greatest miss]
  apply scan_least
  · exact BitVec.le_def.mpr (by simp)
  · exact BitVec.le_def.mpr (by have := y.isLt; omega)
  · exact holds
  · intro z _ below
    exact least z below
  · rw [BitVec.toNat_ofNat, Nat.zero_mod]
    omega

/-- A predicate that holds anywhere holds at a least value. -/
theorem scan_exists_least {y : BitVec w} (holds : p y = true) :
    ∃ z, p z = true ∧ z ≤ y ∧ ∀ v, v < z → p v = false := by
  obtain ⟨z, -, -, upto, -, hit, least⟩ :=
    scan_exists (BitVec.le_def.mpr (by simp) : 0#w ≤ y) (BitVec.le_refl y) holds
  exact ⟨z, hit, upto, fun v below => least v (BitVec.le_def.mpr (by simp)) below⟩

end Scan

end Lib
