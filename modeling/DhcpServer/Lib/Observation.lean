import DhcpServer.Lib.Run

/-!
# What an observer of a machine can tell

An observer chooses the inputs of a machine and sees something of each output. Two states he cannot tell
apart show the same in all their runs. A relation that the steps from both keep, with the same to see at
each, is a proof that he cannot.
-/

namespace Lib
set_option autoImplicit false

section Observation
variable {σ ι ο ω : Type} {step : Machine σ ι ο} {observe : ο → ω}

/-- What is seen of a run, newest step first. -/
def observed (observe : ο → ω) (h : List (ι × ο)) : List (ι × ω) := h.map fun e => (e.1, observe e.2)

theorem observed_cons (e : ι × ο) (h : List (ι × ο)) :
    observed observe (e :: h) = (e.1, observe e.2) :: observed observe h := rfl

theorem observed_inputs (h : List (ι × ο)) : (observed observe h).map Prod.fst = h.map Prod.fst := List.map_map

/-- Some run from the state is seen like this. -/
def Shows (step : Machine σ ι ο) (observe : ο → ω) (s : σ) (seen : List (ι × ω)) : Prop :=
  ∃ h t, Run step s h t ∧ observed observe h = seen

/-- No choice of inputs tells the states apart. -/
def Indistinguishable (step : Machine σ ι ο) (observe : ο → ω) (s s' : σ) : Prop :=
  ∀ seen, Shows step observe s seen ↔ Shows step observe s' seen

/-- The steps from related states return alike, are seen alike and lead to related states. -/
def Bisimulation (step : Machine σ ι ο) (observe : ο → ω) (Related : σ → σ → Prop) : Prop :=
  ∀ s s' i, Related s s' →
    Option.Rel (fun r r' => observe r.2 = observe r'.2 ∧ Related r.1 r'.1) (step s i) (step s' i)

variable {Related : σ → σ → Prop} {s s' t : σ} {h : List (ι × ο)} {i : ι} {o : ο}

theorem Bisimulation.flip (bisimulation : Bisimulation step observe Related) :
    Bisimulation step observe fun s s' => Related s' s := by
  intro s s' i related
  have alike := bisimulation s' s i related
  generalize step s i = r at alike ⊢
  generalize step s' i = r' at alike ⊢
  cases alike with
  | none => exact .none
  | some both => exact .some ⟨both.1.symm, both.2⟩

/-- What one step shows, the related state's step shows. -/
theorem Bisimulation.next (bisimulation : Bisimulation step observe Related) (related : Related s s')
    (stepped : step s i = some (t, o)) :
    ∃ t' o', step s' i = some (t', o') ∧ observe o = observe o' ∧ Related t t' := by
  have alike := bisimulation s s' i related
  rw [stepped] at alike
  cases returned : step s' i with
  | none => rw [returned] at alike; cases alike
  | some r =>
    rw [returned] at alike
    cases alike with
    | some both => exact ⟨r.1, r.2, rfl, both⟩

/-- What a run shows, a run from the related state shows. -/
theorem Bisimulation.run (bisimulation : Bisimulation step observe Related) (related : Related s s')
    (run : Run step s h t) : ∃ h' t', Run step s' h' t' ∧ observed observe h' = observed observe h ∧ Related t t' := by
  induction run with
  | start => exact ⟨[], s', .start, rfl, related⟩
  | @snoc h t u i o _ stepped ih =>
    obtain ⟨h', t', run', same, related'⟩ := ih
    obtain ⟨u', o', stepped', seen, related''⟩ := bisimulation.next related' stepped
    refine ⟨(i, o') :: h', u', run'.snoc stepped', ?_, related''⟩
    rw [observed_cons, observed_cons, same, seen]

/-- **The bisimulation rule.** -/
theorem Bisimulation.indistinguishable (bisimulation : Bisimulation step observe Related) (related : Related s s') :
    Indistinguishable step observe s s' := by
  intro seen
  constructor
  · rintro ⟨h, t, run, rfl⟩
    obtain ⟨h', t', run', same, -⟩ := bisimulation.run related run
    exact ⟨h', t', run', same⟩
  · rintro ⟨h, t, run, rfl⟩
    obtain ⟨h', t', run', same, -⟩ := bisimulation.flip.run related run
    exact ⟨h', t', run', same⟩

theorem Indistinguishable.symm (same : Indistinguishable step observe s s') : Indistinguishable step observe s' s :=
  fun seen => (same seen).symm

/-- What a run shows, states that cannot be told apart both show. -/
theorem Indistinguishable.run (same : Indistinguishable step observe s s') (run : Run step s h t) :
    ∃ h' t', Run step s' h' t' ∧ observed observe h' = observed observe h :=
  (same _).mp ⟨h, t, run, rfl⟩

/-- So it is with one step. -/
theorem Indistinguishable.next (same : Indistinguishable step observe s s') (stepped : step s i = some (t, o)) :
    ∃ t' o', step s' i = some (t', o') ∧ observe o' = observe o := by
  obtain ⟨h', t', run', seen⟩ := same.run (Run.start.snoc stepped)
  cases run' with
  | start => cases seen
  | snoc before stepped' =>
    obtain ⟨first, rest⟩ := List.cons.inj seen
    obtain ⟨rfl, seenLast⟩ := Prod.mk.inj first
    obtain rfl := List.map_eq_nil_iff.mp rest
    cases before
    exact ⟨_, _, stepped', seenLast⟩

end Observation

end Lib
