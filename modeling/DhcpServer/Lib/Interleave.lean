import DhcpServer.Lib.Run
import Mathlib.Logic.Function.Basic

/-!
# Workers on a shared state

Workers take atomic steps, in any order, on a state they share and each on a local state of its own.
`Run.interleaved` is the rule of non-interference: an assertion about every worker's local state holds
throughout when a worker's own steps establish it and the steps of the others do not destroy it.
-/

namespace Lib
set_option autoImplicit false

/-- An atomic step of one worker; `none` when the worker cannot take it. -/
abbrev LocalStep (σ ℓ ι ο : Type) := σ → ℓ → ι → Option (σ × ℓ × ο)

structure Team (σ ℓ : Type) (n : Nat) where
  shared : σ
  workers : Fin n → ℓ

section Interleave
variable {σ ℓ ι ο : Type} {n : Nat} {step : LocalStep σ ℓ ι ο}

/-- The interleavings of `n` workers: an input names the worker that takes the next step. -/
def interleave (step : LocalStep σ ℓ ι ο) : Machine (Team σ ℓ n) (Fin n × ι) ο := fun team input =>
  (step team.shared (team.workers input.1) input.2).map fun r =>
    (⟨r.1, Function.update team.workers input.1 r.2.1⟩, r.2.2)

/-- One worker by itself. -/
def solo (step : LocalStep σ ℓ ι ο) : Machine (σ × ℓ) ι ο := fun s i =>
  (step s.1 s.2 i).map fun r => ((r.1, r.2.1), r.2.2)

theorem Run.solo_snoc {s₀ : σ × ℓ} {h : List (ι × ο)} {s t : σ} {l l' : ℓ} {i : ι} {o : ο}
    (run : Run (solo step) s₀ h (s, l)) (stepped : step s l i = some (t, l', o)) :
    Run (solo step) s₀ ((i, o) :: h) (t, l') := by
  refine run.snoc ?_
  rw [solo, stepped]
  rfl

/-- The others may stand still while a worker runs. -/
theorem Run.of_solo (workers : Fin n → ℓ) (w : Fin n) {h : List (ι × ο)} {s t : σ × ℓ} (run : Run (solo step) s h t) :
    Run (interleave step) ⟨s.1, Function.update workers w s.2⟩ (h.map fun e => ((w, e.1), e.2))
      ⟨t.1, Function.update workers w t.2⟩ := by
  induction run with
  | start => exact .start
  | @snoc _ s _ i _ _ stepped ih =>
    obtain ⟨r, taken, same⟩ := Option.map_eq_some_iff.mp stepped
    cases same
    refine ih.snoc ?_
    have here : step s.1 (Function.update workers w s.2 w) i = some r := by rwa [Function.update_self]
    rw [interleave]
    simp only [here, Option.map_some, Function.update_idem]

/-- The outputs of a run by itself are the team's. -/
theorem outputs_of_solo (w : Fin n) (h : List (ι × ο)) :
    (h.map fun e => ((w, e.1), e.2)).map Prod.snd = h.map Prod.snd := by
  rw [List.map_map]
  rfl

/-- A step of the team is a worker's step. -/
theorem step_of_interleave {team team' : Team σ ℓ n} {w : Fin n} {i : ι} {o : ο}
    (stepped : interleave step team (w, i) = some (team', o)) :
    ∃ s l, step team.shared (team.workers w) i = some (s, l, o) ∧
      team' = ⟨s, Function.update team.workers w l⟩ := by
  obtain ⟨⟨s, l, o'⟩, taken, same⟩ := Option.map_eq_some_iff.mp stepped
  cases same
  exact ⟨s, l, taken, rfl⟩

/-- **Non-interference.** A worker alone is not interfered with. -/
theorem Run.interleaved (Shared : List ο → σ → Prop) (Local : σ → ℓ → Prop) {s₀ : Team σ ℓ n}
    (init : Shared [] s₀.shared ∧ ∀ w, Local s₀.shared (s₀.workers w))
    (own : ∀ h s l i t l' o, Shared h s → Local s l → step s l i = some (t, l', o) →
      Shared (o :: h) t ∧ Local t l')
    (others : ∀ h s l m i t l' o, 1 < n → Shared h s → Local s l → Local s m → step s l i = some (t, l', o) →
      Local t m)
    {h : List ((Fin n × ι) × ο)} {team : Team σ ℓ n} (run : Run (interleave step) s₀ h team) :
    Shared (h.map Prod.snd) team.shared ∧ ∀ w, Local team.shared (team.workers w) := by
  refine run.invariant (fun h (team : Team σ ℓ n) => Shared (h.map Prod.snd) team.shared ∧
    ∀ w, Local team.shared (team.workers w)) init ?_
  rintro h team ⟨w, i⟩ team' o ⟨shared, workers⟩ stepped
  obtain ⟨s, l, taken, rfl⟩ := step_of_interleave stepped
  obtain ⟨shared', here⟩ := own _ _ _ _ _ _ _ shared (workers w) taken
  refine ⟨shared', fun v => ?_⟩
  by_cases same : v = w
  · rw [same]
    show Local s (Function.update team.workers w l w)
    rwa [Function.update_self]
  · show Local s (Function.update team.workers w l v)
    rw [Function.update_of_ne same]
    have several : 1 < n := by
      have := v.isLt
      have := w.isLt
      have : v.val ≠ w.val := fun equal => same (Fin.ext equal)
      omega
    exact others _ _ _ _ _ _ _ _ several shared (workers w) (workers v) taken

end Interleave

end Lib
