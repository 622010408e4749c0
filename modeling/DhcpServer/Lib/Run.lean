import Mathlib.Tactic.Common

/-!
# Runs of a deterministic machine

A machine takes an input in a state and either returns, with the next state and an output, or
does not (it halted, or it never comes back). A run remembers its history, newest step first,
so that a statement about "an earlier step" is a statement about a suffix of a list.
-/

namespace Lib
set_option autoImplicit false

/-- One step of a machine; `none` when the step does not return. -/
abbrev Machine (σ ι ο : Type) := σ → ι → Option (σ × ο)

section Run
variable {σ ι ο : Type} {step : Machine σ ι ο}

/-- `Run step s₀ h s`: from `s₀` the machine reaches `s` with history `h`, newest first. -/
inductive Run (step : Machine σ ι ο) (s₀ : σ) : List (ι × ο) → σ → Prop where
  | start : Run step s₀ [] s₀
  | snoc {h : List (ι × ο)} {s t : σ} {i : ι} {o : ο} :
      Run step s₀ h s → step s i = some (t, o) → Run step s₀ ((i, o) :: h) t

/-- **The invariant rule**, for invariants that may mention the history. -/
theorem Run.invariant {s₀ : σ} (Inv : List (ι × ο) → σ → Prop) (init : Inv [] s₀)
    (preserved : ∀ h s i t o, Inv h s → step s i = some (t, o) → Inv ((i, o) :: h) t)
    {h : List (ι × ο)} {s : σ} (run : Run step s₀ h s) : Inv h s := by
  induction run with
  | start => exact init
  | snoc _ stepped ih => exact preserved _ _ _ _ _ ih stepped

/-- What each step preserves, a run preserves. -/
theorem Run.preserves {s₀ : σ} (P : σ → Prop)
    (preserved : ∀ s i t o, P s → step s i = some (t, o) → P t)
    {h : List (ι × ο)} {s : σ} (run : Run step s₀ h s) (init : P s₀) : P s :=
  run.invariant (fun _ s => P s) init fun _ s i t o => preserved s i t o

/-- A run passes through a state at every point of its history. -/
theorem Run.split {s₀ t : σ} {newer older : List (ι × ο)}
    (run : Run step s₀ (newer ++ older) t) : ∃ s, Run step s₀ older s ∧ Run step s newer t := by
  induction newer generalizing t with
  | nil => exact ⟨t, run, .start⟩
  | cons entry newer ih =>
    cases run with
    | snoc before stepped =>
      obtain ⟨s, first, second⟩ := ih before
      exact ⟨s, first, second.snoc stepped⟩

/-- Runs follow one another. -/
theorem Run.trans {s₀ s t : σ} {older newer : List (ι × ο)} (first : Run step s₀ older s)
    (second : Run step s newer t) : Run step s₀ (newer ++ older) t := by
  induction second with
  | start => exact first
  | snoc _ stepped ih => exact ih.snoc stepped

/-- The step recorded at a point of the history, with the states around it. -/
theorem Run.step_at {s₀ u : σ} {newer older : List (ι × ο)} {i : ι} {o : ο}
    (run : Run step s₀ (newer ++ (i, o) :: older) u) :
    ∃ s t, Run step s₀ older s ∧ step s i = some (t, o) ∧ Run step t newer u := by
  obtain ⟨t, before, after⟩ := run.split
  cases before with
  | snoc earlier stepped => exact ⟨_, t, earlier, stepped, after⟩

/-- The history determines the state. -/
theorem Run.unique {s₀ s t : σ} {h : List (ι × ο)} (run : Run step s₀ h s)
    (run' : Run step s₀ h t) : s = t := by
  induction run generalizing t with
  | start => cases run'; rfl
  | snoc _ stepped ih =>
    cases run' with
    | snoc earlier stepped' =>
      cases ih earlier
      rw [stepped] at stepped'
      exact (Prod.mk.inj (Option.some.inj stepped')).1

/-- Every state the run passes through has the property. -/
def AlwaysIn (step : Machine σ ι ο) (s₀ : σ) (h : List (ι × ο)) (P : σ → Prop) : Prop :=
  ∀ older s, older <:+ h → Run step s₀ older s → P s

/-- Every step of the run meets the condition, in the state it is taken in. -/
def EachStep (step : Machine σ ι ο) (s₀ : σ) (h : List (ι × ο)) (C : σ → ι → Prop) : Prop :=
  ∀ older s i o, (i, o) :: older <:+ h → Run step s₀ older s → C s i

theorem EachStep.imp {s₀ : σ} {h : List (ι × ο)} {C D : σ → ι → Prop} (each : EachStep step s₀ h C)
    (weaker : ∀ s i, C s i → D s i) : EachStep step s₀ h D :=
  fun older s i o suffix before => weaker s i (each older s i o suffix before)

theorem alwaysIn_cons {s₀ t : σ} {h : List (ι × ο)} {i : ι} {o : ο} {P : σ → Prop}
    (run : Run step s₀ ((i, o) :: h) t) :
    AlwaysIn step s₀ ((i, o) :: h) P ↔ AlwaysIn step s₀ h P ∧ P t := by
  constructor
  · intro always
    exact ⟨fun older s suffix => always older s (suffix.trans (List.suffix_cons _ _)),
      always _ t List.suffix_rfl run⟩
  · rintro ⟨earlier, last⟩ older s suffix before
    rcases List.suffix_cons_iff.mp suffix with rfl | suffix
    · rwa [before.unique run]
    · exact earlier older s suffix before

theorem eachStep_cons {s₀ s : σ} {h : List (ι × ο)} {i : ι} {o : ο} {C : σ → ι → Prop}
    (run : Run step s₀ h s) :
    EachStep step s₀ ((i, o) :: h) C ↔ EachStep step s₀ h C ∧ C s i := by
  constructor
  · intro each
    exact ⟨fun older s i o suffix => each older s i o (suffix.trans (List.suffix_cons _ _)),
      each h s i o List.suffix_rfl run⟩
  · rintro ⟨earlier, last⟩ older s' i' o' suffix before
    rcases List.suffix_cons_iff.mp suffix with same | suffix
    · cases same
      rwa [before.unique run]
    · exact earlier older s' i' o' suffix before

theorem eachStep_start {s₀ : σ} {C : σ → ι → Prop} : EachStep step s₀ [] C := by
  intro older s i o suffix
  cases List.suffix_nil.mp suffix

/-- Runs that meet a condition follow one another. -/
theorem EachStep.trans {s₀ s t : σ} {older newer : List (ι × ο)} {C : σ → ι → Prop} (first : Run step s₀ older s)
    (each : EachStep step s₀ older C) (second : Run step s newer t) (each' : EachStep step s newer C) :
    EachStep step s₀ (newer ++ older) C := by
  induction second with
  | start => exact each
  | snoc before _ ih =>
    obtain ⟨earlier, last⟩ := (eachStep_cons before).mp each'
    exact (eachStep_cons (first.trans before)).mpr ⟨ih earlier, last⟩

/-- **The exact rule.** Where a step keeps the property exactly when it meets a condition, a run has
the property throughout exactly when all its steps meet the condition. -/
theorem Run.alwaysIn_iff {s₀ s : σ} {P : σ → Prop} {C : σ → ι → Prop} (init : P s₀)
    (exact_step : ∀ s i t o, P s → step s i = some (t, o) → (P t ↔ C s i)) {h : List (ι × ο)}
    (run : Run step s₀ h s) : AlwaysIn step s₀ h P ↔ EachStep step s₀ h C := by
  induction run with
  | start =>
    refine iff_of_true (fun older s suffix before => ?_) fun older s i o suffix => ?_
    · rw [List.suffix_nil.mp suffix] at before
      cases before
      exact init
    · cases List.suffix_nil.mp suffix
  | @snoc h s t i o before stepped ih =>
    rw [alwaysIn_cons (before.snoc stepped), eachStep_cons before, ih]
    constructor
    · rintro ⟨each, last⟩
      exact ⟨each, (exact_step s i t o (ih.mpr each h s List.suffix_rfl before) stepped).mp last⟩
    · rintro ⟨each, meets⟩
      exact ⟨each, (exact_step s i t o (ih.mpr each h s List.suffix_rfl before) stepped).mpr meets⟩

/-- Feed a list of inputs, oldest first. -/
def exec (step : Machine σ ι ο) : σ → List (ι × ο) → List ι → Option (σ × List (ι × ο))
  | s, h, [] => some (s, h)
  | s, h, i :: rest =>
    match step s i with
    | none => none
    | some (t, o) => exec step t ((i, o) :: h) rest

/-- What `exec` computes is a run on those inputs. -/
theorem Run.of_exec {s₀ s t : σ} {h h' : List (ι × ο)} {inputs : List ι}
    (run : Run step s₀ h s) (computed : exec step s h inputs = some (t, h')) :
    Run step s₀ h' t := by
  induction inputs generalizing s h with
  | nil => cases computed; exact run
  | cons i rest ih =>
    simp only [exec] at computed
    split at computed
    · cases computed
    · rename_i u o stepped
      exact ih (run.snoc stepped) computed

/-- The history records the inputs. -/
theorem exec_inputs {s t : σ} {h h' : List (ι × ο)} {inputs : List ι}
    (computed : exec step s h inputs = some (t, h')) : h'.map Prod.fst = inputs.reverse ++ h.map Prod.fst := by
  induction inputs generalizing s h with
  | nil => cases computed; rfl
  | cons i rest ih =>
    simp only [exec] at computed
    split at computed
    · cases computed
    · rw [ih computed, List.reverse_cons, List.append_assoc]
      rfl

/-- A run with a property, from one evaluation of a check. -/
theorem Run.of_check {s₀ : σ} (inputs : List ι) (check : σ → List (ι × ο) → Bool)
    (passes : (exec step s₀ [] inputs).any (fun r => check r.1 r.2) = true) :
    ∃ s h, Run step s₀ h s ∧ h.map Prod.fst = inputs.reverse ∧ check s h = true := by
  cases computed : exec step s₀ [] inputs with
  | none =>
    rw [computed] at passes
    cases passes
  | some r =>
    rw [computed] at passes
    exact ⟨r.1, r.2, Run.of_exec .start computed, by simpa using exec_inputs computed, passes⟩

/-- The machine where it is only given inputs that pass a test. -/
def guarded (test : σ → ι → Bool) (step : Machine σ ι ο) : Machine σ ι ο := fun s i =>
  if test s i then step s i else none

theorem Run.of_guarded {s₀ s : σ} {h : List (ι × ο)} {test : σ → ι → Bool} (run : Run (guarded test step) s₀ h s) :
    Run step s₀ h s ∧ EachStep step s₀ h fun s i => test s i = true := by
  induction run with
  | start => exact ⟨.start, eachStep_start⟩
  | snoc _ stepped ih =>
    obtain ⟨before, each⟩ := ih
    unfold guarded at stepped
    split at stepped
    · rename_i passes
      exact ⟨before.snoc stepped, (eachStep_cons before).mpr ⟨each, passes⟩⟩
    · cases stepped

end Run

end Lib
