import DhcpServer.Lib.Simulation
import Mathlib.Data.List.Forall2

/-!
# A producer and a consumer

One thread receives items and puts them into a bounded buffer; another one takes them out and hands each to
a machine. The threads take turns in any order. What the machine does is a run of the machine alone, on the
items in the order they were received; the items not handled yet are in the hands of a thread or in the
buffer; and the consumer by itself empties the buffer.
-/

namespace Lib
set_option autoImplicit false

/-- A buffer and the line it holds. `none` is a push or a pop that goes wrong. -/
structure Buffer (β τ : Type) where
  push : β → τ → Option β
  pop : β → Option (β × Option τ)
  Holds : β → List τ → Prop
  push_holds : ∀ {b b' line x}, Holds b line → push b x = some b' → Holds b' (line ++ [x])
  pop_holds : ∀ {b line}, Holds b line → ∃ b', pop b = some (b', line.head?) ∧ Holds b' line.tail

structure Pipeline (β τ σ : Type) where
  /-- What the producer has received and not pushed yet. -/
  received : Option τ
  buffer : β
  /-- What the consumer has popped and not handled yet. -/
  inHand : Option τ
  server : σ

inductive PipelineEvent (τ ε : Type) where
  | receive (item : τ)
  | push
  /-- With nothing in the buffer the consumer waits. -/
  | pop
  /-- The item in hand is handled, under the given circumstances. -/
  | handle (circumstances : ε)

section Pipeline
variable {β τ σ ε ι ο : Type}

/-- The events in any order; each thread takes its own in turn. -/
def pipeline (buffer : Buffer β τ) (input : ε → τ → ι) (serve : Machine σ ι ο) :
    Machine (Pipeline β τ σ) (PipelineEvent τ ε) (Option (τ × ο)) := fun p event =>
  match event with
  | .receive item =>
    match p.received with
    | none => some ({ p with received := some item }, none)
    | some _ => none
  | .push =>
    match p.received with
    | none => none
    | some item => (buffer.push p.buffer item).map fun b => ({ p with received := none, buffer := b }, none)
  | .pop =>
    match p.inHand with
    | none => (buffer.pop p.buffer).map fun r => ({ p with buffer := r.1, inHand := r.2 }, none)
    | some _ => none
  | .handle circumstances =>
    match p.inHand with
    | none => none
    | some item => (serve p.server (input circumstances item)).map fun r =>
      ({ p with inHand := none, server := r.1 }, some (item, r.2))

/-- With nothing received, and nothing in the buffer. -/
def Pipeline.start (b : β) (s₀ : σ) : Pipeline β τ σ where
  received := none
  buffer := b
  inHand := none
  server := s₀

/-- The item an event brings in. -/
def PipelineEvent.item : PipelineEvent τ ε → Option τ
  | .receive item => some item
  | .push => none
  | .pop => none
  | .handle _ => none

/-- The items received, oldest first. -/
def receivedItems (h : List (PipelineEvent τ ε × Option (τ × ο))) : List τ := (h.filterMap fun e => e.1.item).reverse

/-- The items handled, oldest first. -/
def handledItems (h : List (PipelineEvent τ ε × Option (τ × ο))) : List τ :=
  (h.filterMap fun e => e.2.map Prod.fst).reverse

theorem receivedItems_cons (event : PipelineEvent τ ε) (out : Option (τ × ο))
    (h : List (PipelineEvent τ ε × Option (τ × ο))) :
    receivedItems ((event, out) :: h) = receivedItems h ++ event.item.toList := by
  cases event <;> simp [receivedItems, PipelineEvent.item]

theorem handledItems_cons (event : PipelineEvent τ ε) (out : Option (τ × ο))
    (h : List (PipelineEvent τ ε × Option (τ × ο))) :
    handledItems ((event, out) :: h) = handledItems h ++ (out.map Prod.fst).toList := by
  cases out <;> simp [handledItems]

theorem receivedItems_append (newer older : List (PipelineEvent τ ε × Option (τ × ο))) :
    receivedItems (newer ++ older) = receivedItems older ++ receivedItems newer := by
  simp [receivedItems]

/-- The machine's steps among those of the pipeline. -/
def handled (input : ε → τ → ι) (e : PipelineEvent τ ε × Option (τ × ο)) : Option (ι × ο) :=
  match e.1 with
  | .receive _ => none
  | .push => none
  | .pop => none
  | .handle circumstances => e.2.map fun r => (input circumstances r.1, r.2)

/-- A condition on the machine's steps, for the pipeline's. -/
def WhenHandling (input : ε → τ → ι) (Cond : σ → ι → Prop) (p : Pipeline β τ σ) (event : PipelineEvent τ ε) : Prop :=
  match event with
  | .receive _ => True
  | .push => True
  | .pop => True
  | .handle circumstances => ∀ item, p.inHand = some item → Cond p.server (input circumstances item)

section Steps
variable {buffer : Buffer β τ} {input : ε → τ → ι} {serve : Machine σ ι ο} {p q : Pipeline β τ σ} {line : List τ}
  {event : PipelineEvent τ ε} {out : Option (τ × ο)}

/-- The ways a pipeline takes a step. -/
inductive Piped (buffer : Buffer β τ) (input : ε → τ → ι) (serve : Machine σ ι ο) (p : Pipeline β τ σ) :
    PipelineEvent τ ε → Pipeline β τ σ → Option (τ × ο) → Prop where
  | received (item : τ) (ready : p.received = none) :
      Piped buffer input serve p (.receive item) { p with received := some item } none
  | pushed {item : τ} {b : β} (holding : p.received = some item) (pushed : buffer.push p.buffer item = some b) :
      Piped buffer input serve p .push { p with received := none, buffer := b } none
  | popped {b : β} {item : Option τ} (ready : p.inHand = none) (popped : buffer.pop p.buffer = some (b, item)) :
      Piped buffer input serve p .pop { p with buffer := b, inHand := item } none
  | handled {circumstances : ε} {item : τ} {s : σ} {o : ο} (holding : p.inHand = some item)
      (served : serve p.server (input circumstances item) = some (s, o)) :
      Piped buffer input serve p (.handle circumstances) { p with inHand := none, server := s } (some (item, o))

theorem piped_of_step (stepped : pipeline buffer input serve p event = some (q, out)) :
    Piped buffer input serve p event q out := by
  cases event with
  | receive item =>
    simp only [pipeline] at stepped
    split at stepped
    · rename_i ready
      cases stepped
      exact .received item ready
    · cases stepped
  | push =>
    simp only [pipeline] at stepped
    split at stepped
    · cases stepped
    · rename_i item holding
      obtain ⟨b, pushed, same⟩ := Option.map_eq_some_iff.mp stepped
      cases same
      exact .pushed holding pushed
  | pop =>
    simp only [pipeline] at stepped
    split at stepped
    · rename_i ready
      obtain ⟨⟨b, item⟩, popped, same⟩ := Option.map_eq_some_iff.mp stepped
      cases same
      exact .popped ready popped
    · cases stepped
  | handle circumstances =>
    simp only [pipeline] at stepped
    split at stepped
    · cases stepped
    · rename_i item holding
      obtain ⟨⟨s, o⟩, served, same⟩ := Option.map_eq_some_iff.mp stepped
      cases same
      exact .handled holding served

/-- What simulates the machine simulates the pipeline around it. -/
theorem pipeline_simulation {σ₀ ι₀ ο₀ : Type} {step : Machine σ₀ ι₀ ο₀} {emits : ι × ο → Option (ι₀ × ο₀)}
    {Related : σ₀ → σ → Prop} {Cond : σ → ι → Prop} (inner : Simulation step serve emits Related Cond) :
    Simulation step (pipeline buffer input serve) (fun e => (handled input e).bind emits)
      (fun s p => Related s p.server) (WhenHandling input Cond) where
  follows := by
    intro s p event q out related cond stepped
    cases piped_of_step stepped with
    | received => exact ⟨s, rfl, related⟩
    | pushed => exact ⟨s, rfl, related⟩
    | popped => exact ⟨s, rfl, related⟩
    | handled holding served => exact inner.follows related (cond _ holding) served

/-- What a step of the pipeline keeps: the line, and the order of the items. -/
theorem Piped.items {older : List (PipelineEvent τ ε × Option (τ × ο))} (piped : Piped buffer input serve p event q out)
    (holds : buffer.Holds p.buffer line)
    (order : handledItems older ++ p.inHand.toList ++ line ++ p.received.toList = receivedItems older) :
    ∃ line, buffer.Holds q.buffer line ∧
      handledItems ((event, out) :: older) ++ q.inHand.toList ++ line ++ q.received.toList =
        receivedItems ((event, out) :: older) := by
  rw [receivedItems_cons, handledItems_cons, ← order]
  cases piped with
  | received item ready =>
    refine ⟨line, holds, ?_⟩
    simp [ready, PipelineEvent.item]
  | @pushed item b holding pushed =>
    refine ⟨line ++ [item], buffer.push_holds holds pushed, ?_⟩
    simp [holding, PipelineEvent.item]
  | @popped b item ready popped =>
    obtain ⟨b', popped', holds'⟩ := buffer.pop_holds holds
    rw [popped] at popped'
    cases popped'
    refine ⟨line.tail, holds', ?_⟩
    cases line <;> simp [ready, PipelineEvent.item]
  | @handled circumstances item s o holding served =>
    refine ⟨line, holds, ?_⟩
    simp [holding, PipelineEvent.item]

end Steps

section Runs
variable {buffer : Buffer β τ} {input : ε → τ → ι} {serve : Machine σ ι ο} {b : β} {s₀ : σ} {p q : Pipeline β τ σ}
  {h : List (PipelineEvent τ ε × Option (τ × ο))}

/-- **First in, first out, across the whole pipeline.** The items handled, the one in hand, those in the
buffer and the one not pushed yet are the items received. -/
theorem pipeline_fifo (holds : buffer.Holds b []) (run : Run (pipeline buffer input serve) (.start b s₀) h p) :
    ∃ line, buffer.Holds p.buffer line ∧
      handledItems h ++ p.inHand.toList ++ line ++ p.received.toList = receivedItems h := by
  refine run.invariant (fun h (p : Pipeline β τ σ) => ∃ line, buffer.Holds p.buffer line ∧
    handledItems h ++ p.inHand.toList ++ line ++ p.received.toList = receivedItems h) ⟨[], holds, rfl⟩ ?_
  rintro h p event q out ⟨line, held, order⟩ stepped
  exact (piped_of_step stepped).items held order

/-- The machine's inputs are the items handled, one by one. -/
theorem pipeline_inputs (run : Run (pipeline buffer input serve) p h q) :
    List.Forall₂ (fun (e : ι × ο) item => ∃ circumstances, e.1 = input circumstances item)
      (emitted (handled input) h).reverse (handledItems h) := by
  induction run with
  | start => exact .nil
  | @snoc h _ _ event out _ stepped ih =>
    rw [handledItems_cons, emitted_cons]
    cases piped_of_step stepped with
    | received => simpa [handled] using ih
    | pushed => simpa [handled] using ih
    | popped => simpa [handled] using ih
    | @handled circumstances item s o =>
      rw [List.reverse_append]
      exact List.rel_append ih (.cons ⟨circumstances, rfl⟩ .nil)

section Drain
variable {Inv : σ → Prop} {Cond : σ → ι → Prop} {choose : σ → τ → ε}

/-- The machine answers whatever it is handed, under the circumstances chosen. -/
def NeverRefuses (input : ε → τ → ι) (serve : Machine σ ι ο) (Inv : σ → Prop) (Cond : σ → ι → Prop)
    (choose : σ → τ → ε) : Prop :=
  ∀ s item, Inv s → Cond s (input (choose s item) item) ∧
    ∃ t o, serve s (input (choose s item) item) = some (t, o) ∧ Inv t

/-- The consumer's own events, under the circumstances chosen. -/
def Consumes (choose : σ → τ → ε) (p : Pipeline β τ σ) (event : PipelineEvent τ ε) : Prop :=
  event = .pop ∨ ∃ item, p.inHand = some item ∧ event = .handle (choose p.server item)

/-- What the consumer's events do to the rest. -/
structure Drained (buffer : Buffer β τ) (input : ε → τ → ι) (serve : Machine σ ι ο) (Cond : σ → ι → Prop)
    (choose : σ → τ → ε) (p q : Pipeline β τ σ) (h : List (PipelineEvent τ ε × Option (τ × ο))) : Prop where
  run : Run (pipeline buffer input serve) p h q
  own : EachStep (pipeline buffer input serve) p h (Consumes choose)
  cond : EachStep (pipeline buffer input serve) p h (WhenHandling input Cond)
  keeps : q.received = p.received
  nothing : receivedItems h = []

theorem Drained.start : Drained buffer input serve Cond choose p p [] :=
  ⟨.start, eachStep_start, eachStep_start, rfl, rfl⟩

theorem Drained.trans {older newer : List (PipelineEvent τ ε × Option (τ × ο))} {r : Pipeline β τ σ}
    (first : Drained buffer input serve Cond choose p q older)
    (second : Drained buffer input serve Cond choose q r newer) :
    Drained buffer input serve Cond choose p r (newer ++ older) where
  run := first.run.trans second.run
  own := .trans first.run first.own second.run second.own
  cond := .trans first.run first.cond second.run second.cond
  keeps := second.keeps.trans first.keeps
  nothing := by rw [receivedItems_append, first.nothing, second.nothing]; rfl

/-- The item in hand is handled. -/
theorem pipeline_handle (answers : NeverRefuses input serve Inv Cond choose) {item : τ} (holding : p.inHand = some item)
    (inv : Inv p.server) : ∃ h q, Drained buffer input serve Cond choose p q h ∧ q.inHand = none ∧
      q.buffer = p.buffer ∧ Inv q.server := by
  obtain ⟨cond, t, o, served, inv'⟩ := answers p.server item inv
  have stepped : pipeline buffer input serve p (.handle (choose p.server item)) =
      some ({ p with inHand := none, server := t }, some (item, o)) := by
    simp only [pipeline, holding, served, Option.map_some]
  refine ⟨_, _, ⟨Run.start.snoc stepped, (eachStep_cons .start).mpr ⟨eachStep_start, ?_⟩,
    (eachStep_cons .start).mpr ⟨eachStep_start, ?_⟩, rfl, rfl⟩, rfl, rfl, inv'⟩
  · exact Or.inr ⟨item, holding, rfl⟩
  · intro item' same
    rw [holding] at same
    cases same
    exact cond

/-- The next item is popped. -/
theorem pipeline_pop {item : τ} {line : List τ} (ready : p.inHand = none)
    (holds : buffer.Holds p.buffer (item :: line)) : ∃ h q, Drained buffer input serve Cond choose p q h ∧
      q.inHand = some item ∧ buffer.Holds q.buffer line ∧ q.server = p.server := by
  obtain ⟨b', popped, holds'⟩ := buffer.pop_holds holds
  have stepped : pipeline buffer input serve p .pop = some ({ p with buffer := b', inHand := some item }, none) := by
    simp only [pipeline, ready, popped, Option.map_some, List.head?_cons]
  refine ⟨_, _, ⟨Run.start.snoc stepped, (eachStep_cons .start).mpr ⟨eachStep_start, Or.inl rfl⟩,
    (eachStep_cons .start).mpr ⟨eachStep_start, trivial⟩, rfl, rfl⟩, rfl, holds', rfl⟩

/-- A consumer with nothing in hand works off the line. -/
theorem pipeline_works_off (answers : NeverRefuses input serve Inv Cond choose) {line : List τ}
    (ready : p.inHand = none) (holds : buffer.Holds p.buffer line) (inv : Inv p.server) :
    ∃ h q, Drained buffer input serve Cond choose p q h ∧ q.inHand = none ∧ buffer.Holds q.buffer [] := by
  induction line generalizing p with
  | nil => exact ⟨[], p, .start, ready, holds⟩
  | cons item line ih =>
    obtain ⟨h₁, q, popping, holding, holds', same⟩ := pipeline_pop ready holds
    obtain ⟨h₂, r, handling, ready', same', inv'⟩ := pipeline_handle answers holding (same ▸ inv)
    obtain ⟨h₃, u, rest, done⟩ := ih ready' (same' ▸ holds') inv'
    exact ⟨_, u, (popping.trans handling).trans rest, done⟩

/-- **A consumer that its machine never refuses empties the buffer.** -/
theorem pipeline_drains (answers : NeverRefuses input serve Inv Cond choose) {line : List τ}
    (holds : buffer.Holds p.buffer line) (inv : Inv p.server) :
    ∃ h q, Drained buffer input serve Cond choose p q h ∧ q.inHand = none ∧ buffer.Holds q.buffer [] := by
  cases hand : p.inHand with
  | none => exact pipeline_works_off answers hand holds inv
  | some item =>
    obtain ⟨h₁, q, handling, ready, same, inv'⟩ := pipeline_handle answers hand inv
    obtain ⟨h₂, r, rest, done⟩ := pipeline_works_off answers ready (same ▸ holds) inv'
    exact ⟨_, r, handling.trans rest, done⟩

end Drain

end Runs

end Pipeline

end Lib
