import DhcpServer.Lib.Run

/-!
# Simulation with silent steps

A machine that does in its own way what another one does, and takes steps of its own in between. Each of its
steps either emits a step, which the other machine takes as well, or nothing, and the states stay related.
A run then is a run of the other machine over the steps emitted.
-/

namespace Lib
set_option autoImplicit false

section Simulation
variable {σ ι ο σ' ι' ο' : Type} {step : Machine σ ι ο} {step' : Machine σ' ι' ο'}

/-- The other machine takes the step emitted, or stays where it is. -/
def Follows (step : Machine σ ι ο) (s : σ) (emitted : Option (ι × ο)) (t : σ) : Prop :=
  match emitted with
  | none => t = s
  | some (i, o) => step s i = some (t, o)

/-- Under the condition, every step is followed, and the states stay related. -/
structure Simulation (step : Machine σ ι ο) (step' : Machine σ' ι' ο') (emits : ι' × ο' → Option (ι × ο))
    (Related : σ → σ' → Prop) (Cond : σ' → ι' → Prop) : Prop where
  follows : ∀ {s s' i' t' o'}, Related s s' → Cond s' i' → step' s' i' = some (t', o') →
    ∃ t, Follows step s (emits (i', o')) t ∧ Related t t'

/-- The steps a run emits, newest first. -/
def emitted (emits : ι' × ο' → Option (ι × ο)) (h : List (ι' × ο')) : List (ι × ο) := h.filterMap emits

variable {emits : ι' × ο' → Option (ι × ο)} {s₀ s t : σ} {s₀' s' : σ'} {h : List (ι × ο)} {h' : List (ι' × ο')}
  {e : ι' × ο'} {Related : σ → σ' → Prop} {Cond : σ' → ι' → Prop}

theorem emitted_cons (e : ι' × ο') (h : List (ι' × ο')) :
    emitted emits (e :: h) = (emits e).toList ++ emitted emits h := by
  rw [emitted, List.filterMap_cons]
  cases emits e <;> rfl

theorem Run.follow (run : Run step s₀ (emitted emits h') s) (follows : Follows step s (emits e) t) :
    Run step s₀ (emitted emits (e :: h')) t := by
  rw [emitted, List.filterMap_cons]
  cases emission : emits e with
  | none =>
    rw [emission] at follows
    cases follows
    exact run
  | some step =>
    rw [emission] at follows
    exact run.snoc follows

/-- **The simulation rule.** -/
theorem Run.simulated (simulation : Simulation step step' emits Related Cond) (init : Related s₀ s₀')
    (run : Run step' s₀' h' s') (each : EachStep step' s₀' h' Cond) :
    ∃ s, Run step s₀ (emitted emits h') s ∧ Related s s' := by
  induction run with
  | start => exact ⟨s₀, .start, init⟩
  | snoc before stepped ih =>
    obtain ⟨earlier, meets⟩ := (eachStep_cons before).mp each
    obtain ⟨s, run, related⟩ := ih earlier
    obtain ⟨t, follows, related'⟩ := simulation.follows related meets stepped
    exact ⟨t, run.follow follows, related'⟩

end Simulation

end Lib
