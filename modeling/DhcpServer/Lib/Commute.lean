import DhcpServer.Lib.Run

/-!
# Inputs whose order does not matter

Two inputs commute in a state when either order leads to the same state with the same outputs. Where
independent inputs commute in every state of an invariant, a history stays one of a run when neighbours that
are independent change places, any number of times.
-/

namespace Lib
set_option autoImplicit false

section Commute
variable {σ ι ο : Type} {step : Machine σ ι ο}

/-- Two inputs, one behind the other: the state, and what the first and the second one put out. -/
def inOrder (step : Machine σ ι ο) (s : σ) (i j : ι) : Option (σ × ο × ο) :=
  (step s i).bind fun first => (step first.1 j).map fun second => (second.1, first.2, second.2)

/-- The order of two inputs does not matter; neither does it for whether they return. -/
def CommuteAt (step : Machine σ ι ο) (s : σ) (i j : ι) : Prop :=
  inOrder step s i j = (inOrder step s j i).map fun r => (r.1, r.2.2, r.2.1)

theorem CommuteAt.symm {s : σ} {i j : ι} (commute : CommuteAt step s i j) : CommuteAt step s j i := by
  rw [CommuteAt, commute, Option.map_map]
  exact Option.map_id'.symm

theorem inOrder_of_steps {s t u : σ} {i j : ι} {o o' : ο} (first : step s i = some (t, o))
    (second : step t j = some (u, o')) : inOrder step s i j = some (u, o, o') := by
  simp only [inOrder, first, Option.bind_some, second, Option.map_some]

/-- Inputs that commute may change places. -/
theorem CommuteAt.steps {s t u : σ} {i j : ι} {o o' : ο} (commute : CommuteAt step s i j)
    (first : step s i = some (t, o)) (second : step t j = some (u, o')) :
    ∃ t', step s j = some (t', o') ∧ step t' i = some (u, o) := by
  have swapped := commute.symm
  rw [CommuteAt, inOrder_of_steps first second, Option.map_some] at swapped
  obtain ⟨⟨t', o''⟩, first', rest⟩ := Option.bind_eq_some_iff.mp swapped
  obtain ⟨⟨u', o'''⟩, second', same⟩ := Option.map_eq_some_iff.mp rest
  cases same
  exact ⟨t', first', second'⟩

/-- An input that leaves the state alone commutes with one that keeps what it reads. -/
theorem CommuteAt.of_reads {s : σ} {i j : ι} {r : σ → Option ο} (reads : ∀ s, step s i = (r s).map fun o => (s, o))
    (kept : ∀ t o, step s j = some (t, o) → r t = r s) : CommuteAt step s i j := by
  simp only [CommuteAt, inOrder, reads]
  cases other : step s j with
  | none => cases r s <;> simp [other]
  | some first =>
    simp only [Option.bind_some, kept first.1 first.2 other]
    cases r s <;> simp [other]

/-- Histories that differ in the order of independent neighbours. -/
inductive Swapped (Independent : ι → ι → Prop) : List (ι × ο) → List (ι × ο) → Prop where
  | refl (h : List (ι × ο)) : Swapped Independent h h
  | swap {h newer older : List (ι × ο)} {i j : ι} {o o' : ο} (independent : Independent i j)
      (rest : Swapped Independent h (newer ++ (i, o) :: (j, o') :: older)) :
      Swapped Independent h (newer ++ (j, o') :: (i, o) :: older)

variable {s₀ s : σ} {h h' : List (ι × ο)}

/-- **The exchange rule.** -/
theorem Run.swapped {Inv : σ → Prop} {Independent : ι → ι → Prop} (init : Inv s₀)
    (preserved : ∀ s i t o, Inv s → step s i = some (t, o) → Inv t)
    (commute : ∀ s i j, Inv s → Independent i j → CommuteAt step s j i) (run : Run step s₀ h s)
    (swapped : Swapped Independent h h') : Run step s₀ h' s := by
  induction swapped with
  | refl => exact run
  | @swap newer older i j o o' independent rest ih =>
    obtain ⟨t, u, before, second, after⟩ := ih.step_at
    cases before with
    | @snoc _ v _ _ _ before first =>
      have inv := before.preserves Inv preserved init
      obtain ⟨t', first', second'⟩ := (commute v i j inv independent).steps first second
      exact ((before.snoc first').snoc second').trans after

end Commute

end Lib
