import Mathlib.Tactic.Common

/-!
# An array as a queue that shifts

The front `count` cells of a fixed array are the contents. A push writes cell `count`; a pop
takes cell 0 and moves every other cell one down, in place. Accesses are checked: one past the
end yields the offending index instead of a value.
-/

namespace Lib
set_option autoImplicit false

variable {α : Type} {n : Nat}

/-- `cells[i]`. -/
def readCell (cells : Vector α n) (i : Nat) : Except Nat α :=
  if h : i < n then .ok (cells.get ⟨i, h⟩) else .error i

/-- `cells[i] = x`. -/
def writeCell (cells : Vector α n) (i : Nat) (x : α) : Except Nat (Vector α n) :=
  if h : i < n then .ok (cells.set i x h) else .error i

/-- `k` iterations of `cells[i] = cells[i + 1]; i++`. -/
def shiftCells : Nat → Nat → Vector α n → Except Nat (Vector α n)
  | 0, _, cells => .ok cells
  | k + 1, i, cells => do
    let x ← readCell cells (i + 1)
    let cells ← writeCell cells i x
    shiftCells k (i + 1) cells

/-- The first `count` cells. -/
def contents (cells : Vector α n) (count : Nat) : List α := cells.toList.take count

section ShiftArray
variable {cells : Vector α n}

theorem readCell_inside {i : Nat} (inside : i < n) : readCell cells i = .ok cells[i] := dif_pos inside

theorem writeCell_inside {i : Nat} (inside : i < n) (x : α) : writeCell cells i x = .ok (cells.set i x) :=
  dif_pos inside

theorem writeCell_outside {i : Nat} (outside : n ≤ i) (x : α) : writeCell cells i x = .error i :=
  dif_neg (Nat.not_lt.mpr outside)

/-- **The loop invariant of the shift**: the cells it has passed hold their right neighbours, the
others are untouched. -/
theorem shiftCells_spec (k i : Nat) (fits : i + k < n) : ∃ shifted, shiftCells k i cells = .ok shifted ∧
    ∀ j, j < n → shifted[j]? = if i ≤ j ∧ j < i + k then cells[j + 1]? else cells[j]? := by
  induction k generalizing i cells with
  | zero => exact ⟨cells, rfl, fun j hj => by rw [if_neg (by omega)]⟩
  | succ k ih =>
    have next : i + 1 < n := by omega
    obtain ⟨shifted, returns, moved⟩ := @ih (cells.set i cells[i + 1]) (i + 1) (by omega)
    refine ⟨shifted, ?_, fun j hj => ?_⟩
    · simp only [shiftCells, readCell_inside next, writeCell_inside (show i < n by omega), bind, Except.bind]
      exact returns
    · -- The written cell is the one the invariant gains.
      rw [moved j hj, Vector.getElem?_set, Vector.getElem?_set]
      by_cases here : j = i
      · subst here
        rw [if_neg (by omega), if_pos rfl, if_pos (by omega)]
        exact (Vector.getElem?_eq_getElem next).symm
      · rw [if_neg (show ¬ i = j by omega)]
        by_cases passed : i + 1 ≤ j ∧ j < i + 1 + k
        · rw [if_pos passed, if_neg (by omega), if_pos (by omega)]
        · rw [if_neg passed, if_neg (by omega)]

theorem contents_length {count : Nat} (fits : count ≤ n) : (contents cells count).length = count := by
  simp [contents, fits]

theorem contents_getElem? (count j : Nat) :
    (contents cells count)[j]? = if j < count then cells[j]? else none := by
  simp [contents, List.getElem?_take]

/-- A write behind the contents appends to them. -/
theorem contents_push {count : Nat} (room : count < n) (x : α) :
    contents (cells.set count x) (count + 1) = contents cells count ++ [x] := by
  apply List.ext_getElem?
  intro j
  rw [contents_getElem?, List.getElem?_append, contents_length (Nat.le_of_lt room), contents_getElem?,
    Vector.getElem?_set]
  grind

/-- **A shift drops the first of the contents** and keeps the others in order. -/
theorem contents_shift {count : Nat} (fits : count < n) :
    ∃ shifted, shiftCells count 0 cells = .ok shifted ∧
      contents cells (count + 1) = cells[0] :: contents shifted count := by
  obtain ⟨shifted, returns, moved⟩ := @shiftCells_spec _ _ cells count 0 (by omega)
  refine ⟨shifted, returns, List.ext_getElem? fun j => ?_⟩
  cases j with
  | zero => simp [contents_getElem?]
  | succ j =>
    rw [List.getElem?_cons_succ, contents_getElem?, contents_getElem?]
    by_cases inside : j < count
    · rw [if_pos (by omega), if_pos inside, moved j (by omega), if_pos (by omega)]
    · rw [if_neg (by omega), if_neg inside]

end ShiftArray

end Lib
