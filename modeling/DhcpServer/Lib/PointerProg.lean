import DhcpServer.Lib.Search

/-!
# Programs that read through pointers

A `PointerProg` reads its cells through pointers that may be `NULL` and ends with a value. It stops at a read
through `NULL`, so it ends exactly when the pointers it reads through (`derefs`) all point to a cell.
-/

namespace Lib
set_option autoImplicit false

/-- `P` are the cells of the heap, `C` what is in them. -/
inductive PointerProg (P C α : Type) : Type where
  | done (value : α)
  | deref (pointer : Option P) (next : C → PointerProg P C α)

namespace PointerProg
variable {P C α β : Type}

/-- The value the program ends with; `none` is a read through `NULL`. -/
def run (heap : P → C) : PointerProg P C α → Option α
  | .done value => some value
  | .deref none _ => none
  | .deref (some cell) next => (next (heap cell)).run heap

/-- The pointers the program reads through, in order. -/
def derefs (heap : P → C) : PointerProg P C α → List (Option P)
  | .done _ => []
  | .deref none _ => [none]
  | .deref (some cell) next => some cell :: (next (heap cell)).derefs heap

def bind : PointerProg P C α → (α → PointerProg P C β) → PointerProg P C β
  | .done value, k => k value
  | .deref pointer next, k => .deref pointer fun cell => (next cell).bind k

instance : Monad (PointerProg P C) where
  pure := .done
  bind := bind

/-- Read a field of the cell the pointer points to. -/
def read (pointer : Option P) (field : C → β) : PointerProg P C β := .deref pointer fun cell => .done (field cell)

/-- **A program ends exactly when it reads through no `NULL`.** -/
theorem run_isSome_iff (heap : P → C) (p : PointerProg P C α) :
    (p.run heap).isSome = true ↔ ∀ pointer ∈ p.derefs heap, pointer.isSome = true := by
  induction p with
  | done value => exact iff_of_true rfl (List.forall_mem_nil _)
  | deref pointer next ih =>
    cases pointer with
    | none => exact iff_of_false Bool.false_ne_true fun each => Bool.false_ne_true (each none List.mem_cons_self)
    | some cell =>
      rw [run, derefs, List.forall_mem_cons, ih (heap cell)]
      exact (and_iff_right rfl).symm

/-! ## Runs of composed programs -/

section Run
variable {heap : P → C}

@[simp] theorem run_pure (value : α) : (pure value : PointerProg P C α).run heap = some value := rfl

@[simp] theorem run_read (pointer : Option P) (field : C → β) :
    (read pointer field).run heap = pointer.map fun cell => field (heap cell) := by
  cases pointer <;> rfl

@[simp] theorem run_bind (p : PointerProg P C α) (k : α → PointerProg P C β) :
    (p >>= k).run heap = (p.run heap).bind fun value => (k value).run heap := by
  show (p.bind k).run heap = _
  induction p with
  | done value => rfl
  | deref pointer next ih =>
    cases pointer with
    | none => rfl
    | some cell => exact ih (heap cell)

/-- A loop that reads through no `NULL` is a fold. -/
theorem run_foldlM {σ : Type} {body : σ → α → PointerProg P C σ} {step : σ → α → σ}
    (turn : ∀ s a, (body s a).run heap = some (step s a)) (l : List α) (s : σ) :
    (l.foldlM body s).run heap = some (l.foldl step s) := by
  induction l generalizing s with
  | nil => rfl
  | cons a l ih =>
    rw [List.foldlM_cons, run_bind, turn, List.foldl_cons]
    exact ih (step s a)

/-- A search runs its test at one element after the other. -/
theorem run_findM_eq (body : α → PointerProg P C Bool) (l : List α) :
    (l.findM? body).run heap = l.findM? fun a => (body a).run heap := by
  induction l with
  | nil => rfl
  | cons a l ih =>
    rw [List.findM?, run_bind, List.findM?]
    refine Option.bind_congr fun passes _ => ?_
    cases passes with
    | true => rfl
    | false => exact ih

/-- A search whose second test, the same at every element, may read through `NULL`: it does at the first
element that passes the first test. -/
theorem run_findM {body : α → PointerProg P C Bool} {p : α → Bool} {second : Option Bool}
    (turn : ∀ a, (body a).run heap = if p a then second else some false) (l : List α) :
    (l.findM? body).run heap = (l.find? p).elim (some none) fun a => second.map fun passes =>
      if passes then some a else none := by
  have search := @findM_second _ p _ (fun a => (body a).run heap) second id l fun a _ => turn a
  rwa [List.map_id, ← run_findM_eq] at search

end Run

end PointerProg

end Lib
