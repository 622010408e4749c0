import DhcpServer.Lib.Memory

/-!
# Reading programs

A `ReadProg` is a program that reads bytes one at a time and ends with a value. Being a tree,
it can look at memory only through `peek`, so the list of offsets it reads (`reads`) bounds
everything it depends on: `run_congr` is noninterference for every program at once.
-/

namespace Lib
set_option autoImplicit false

inductive ReadProg (α : Type) : Type where
  | done (value : α)
  | peek (offset : Nat) (next : Byte → ReadProg α)

namespace ReadProg
variable {α β : Type}

/-- The value the program ends with on memory `m`. -/
def run (m : Memory) : ReadProg α → α
  | .done value => value
  | .peek offset next => (next (m offset)).run m

/-- The offsets the program reads on memory `m`, in order. -/
def reads (m : Memory) : ReadProg α → List Nat
  | .done _ => []
  | .peek offset next => offset :: (next (m offset)).reads m

def bind : ReadProg α → (α → ReadProg β) → ReadProg β
  | .done value, k => k value
  | .peek offset next, k => .peek offset fun b => (next b).bind k

instance : Monad ReadProg where
  pure := .done
  bind := bind

/-- Read one byte. -/
def byte (offset : Nat) : ReadProg Byte := .peek offset .done

@[simp] theorem run_pure (m : Memory) (value : α) : (pure value : ReadProg α).run m = value := rfl

@[simp] theorem reads_pure (m : Memory) (value : α) : (pure value : ReadProg α).reads m = [] := rfl

@[simp] theorem run_byte (m : Memory) (offset : Nat) : (byte offset).run m = m offset := rfl

@[simp] theorem reads_byte (m : Memory) (offset : Nat) : (byte offset).reads m = [offset] := rfl

@[simp] theorem run_bind (m : Memory) (p : ReadProg α) (k : α → ReadProg β) :
    (p >>= k).run m = (k (p.run m)).run m := by
  show (p.bind k).run m = _
  induction p with
  | done value => rfl
  | peek offset next ih => exact ih (m offset)

@[simp] theorem reads_bind (m : Memory) (p : ReadProg α) (k : α → ReadProg β) :
    (p >>= k).reads m = p.reads m ++ (k (p.run m)).reads m := by
  show (p.bind k).reads m = _
  induction p with
  | done value => rfl
  | peek offset next ih => exact congrArg (offset :: ·) (ih (m offset))

/-- **Noninterference.** A program runs alike on two memories that agree where it reads. -/
theorem run_congr {m m' : Memory} (p : ReadProg α) (agree : ∀ i ∈ p.reads m, m' i = m i) :
    p.run m' = p.run m ∧ p.reads m' = p.reads m := by
  induction p with
  | done value => exact ⟨rfl, rfl⟩
  | peek offset next ih =>
    have here : m' offset = m offset := agree offset (by simp [reads])
    obtain ⟨value, offsets⟩ := ih (m offset) fun i member => agree i (by simp [reads, member])
    simp only [run, reads, here]
    exact ⟨value, congrArg (offset :: ·) offsets⟩

/-- A program whose reads stay in a window is a function of that window. -/
theorem run_congr_below {m m' : Memory} {bound : Nat} (p : ReadProg α)
    (inside : ∀ i ∈ p.reads m, i < bound) (agree : ∀ i, i < bound → m' i = m i) :
    p.run m' = p.run m :=
  (p.run_congr fun i member => agree i (inside i member)).1

/-! ## Blocks and loops -/

/-- Read `n` bytes (`memcpy` out of the memory). -/
def bytes (offset : Nat) : (n : Nat) → ReadProg {bs : List Byte // bs.length = n}
  | 0 => pure ⟨[], rfl⟩
  | n + 1 => do
    let front ← bytes offset n
    let last ← byte (offset + n)
    pure ⟨front.val ++ [last], by rw [List.length_append, front.property]; rfl⟩

@[simp] theorem run_bytes (m : Memory) (offset n : Nat) : ((bytes offset n).run m).val = m.slice offset n := by
  induction n with
  | zero => rfl
  | succ n ih => simp [bytes, ih, Memory.slice, List.range_succ]

@[simp] theorem reads_bytes (m : Memory) (offset n : Nat) :
    (bytes offset n).reads m = List.range' offset n := by
  induction n with
  | zero => rfl
  | succ n ih => simp [bytes, ih, List.range'_concat]

/-- The program with its offsets counted from a pointer. -/
def based (base : Nat) : ReadProg α → ReadProg α
  | .done value => .done value
  | .peek offset next => .peek (base + offset) fun b => (next b).based base

@[simp] theorem run_based (m : Memory) (base : Nat) (p : ReadProg α) : (p.based base).run m = p.run (m.shift base) := by
  induction p with
  | done value => rfl
  | peek offset next ih => exact ih (m (base + offset))

@[simp] theorem reads_based (m : Memory) (base : Nat) (p : ReadProg α) :
    (p.based base).reads m = (p.reads (m.shift base)).map fun offset => base + offset := by
  induction p with
  | done value => rfl
  | peek offset next ih => exact congrArg ((base + offset) :: ·) (ih (m (base + offset)))

/-- Read on up to a byte that ends it, `n` bytes at most: the bytes in front of it. -/
def untilByte (stop : Byte) : Nat → Nat → ReadProg (List Byte)
  | 0, _ => pure []
  | n + 1, offset => do
    let b ← byte offset
    if b = stop then
      pure []
    else do
      let rest ← untilByte stop n (offset + 1)
      pure (b :: rest)

section UntilByte
variable {m : Memory} {stop : Byte} {n offset bound j : Nat}

theorem mem_reads_untilByte : j ∈ (untilByte stop n offset).reads m ↔
    offset ≤ j ∧ j < offset + n ∧ ∀ i, offset ≤ i → i < j → m i ≠ stop := by
  induction n generalizing offset with
  | zero =>
    simp only [untilByte, reads_pure, List.not_mem_nil, false_iff]
    omega
  | succ n ih =>
    rw [untilByte, reads_bind, reads_byte, run_byte, List.mem_append, List.mem_singleton]
    constructor
    · rintro (rfl | later)
      · exact ⟨Nat.le_refl _, by omega, fun i low high => absurd low (Nat.not_le_of_lt high)⟩
      · split at later
        · cases later
        · rename_i goesOn
          rw [reads_bind, reads_pure, List.append_nil, ih] at later
          obtain ⟨low, high, before⟩ := later
          refine ⟨by omega, by omega, fun i start behind => ?_⟩
          rcases Nat.lt_or_eq_of_le start with above | rfl
          · exact before i above behind
          · exact goesOn
    · rintro ⟨low, high, before⟩
      rcases Nat.lt_or_eq_of_le low with above | rfl
      · refine Or.inr ?_
        rw [if_neg (before offset (Nat.le_refl _) above), reads_bind, reads_pure, List.append_nil, ih]
        exact ⟨above, by omega, fun i start => before i (by omega)⟩
      · exact Or.inl rfl

/-- It stays below a bound exactly when it ends there. -/
theorem reads_untilByte_below (start : offset ≤ bound) (room : bound < offset + n) :
    (∀ j ∈ (untilByte stop n offset).reads m, j < bound) ↔ ∃ i, offset ≤ i ∧ i < bound ∧ m i = stop := by
  constructor
  · intro inside
    by_contra none
    refine Nat.lt_irrefl bound (inside bound (mem_reads_untilByte.mpr ⟨start, room, fun i low high same => ?_⟩))
    exact none ⟨i, low, high, same⟩
  · rintro ⟨i, low, high, same⟩ j read
    obtain ⟨-, -, before⟩ := mem_reads_untilByte.mp read
    refine Nat.lt_of_not_le fun beyond => ?_
    exact before i low (Nat.lt_of_lt_of_le high beyond) same

end UntilByte

/-- Run `body` until it ends the loop, for at most `fuel` turns. -/
def loop {σ : Type} (body : σ → ReadProg (Except α σ)) (stuck : α) : Nat → σ → ReadProg α
  | 0, _ => pure stuck
  | fuel + 1, s => do
    match ← body s with
    | .error value => pure value
    | .ok next => loop body stuck fuel next

section Loop
variable {σ : Type} {body : σ → ReadProg (Except α σ)} {stuck : α} {m : Memory}

theorem run_loop_next {fuel : Nat} {s next : σ} (turn : (body s).run m = .ok next) :
    (loop body stuck (fuel + 1) s).run m = (loop body stuck fuel next).run m := by
  rw [loop, run_bind, turn]

theorem run_loop_stop {fuel : Nat} {s : σ} {value : α} (turn : (body s).run m = .error value) :
    (loop body stuck (fuel + 1) s).run m = value := by
  rw [loop, run_bind, turn]
  rfl

theorem reads_loop_next {fuel : Nat} {s next : σ} (turn : (body s).run m = .ok next) :
    (loop body stuck (fuel + 1) s).reads m = (body s).reads m ++ (loop body stuck fuel next).reads m := by
  rw [loop, reads_bind, turn]

theorem reads_loop_stop {fuel : Nat} {s : σ} {value : α} (turn : (body s).run m = .error value) :
    (loop body stuck (fuel + 1) s).reads m = (body s).reads m := by
  rw [loop, reads_bind, turn]
  exact List.append_nil _

/-- **The loop rule.** With a measure every turn decreases, fuel past the measure never runs out. -/
theorem run_loop_enough (measure : σ → Nat)
    (decreases : ∀ s next, (body s).run m = .ok next → measure next < measure s) {stuck' : α}
    {fuel fuel' : Nat} {s : σ} (enough : measure s < fuel) (enough' : measure s < fuel') :
    (loop body stuck fuel s).run m = (loop body stuck' fuel' s).run m := by
  induction fuel generalizing fuel' s with
  | zero => omega
  | succ fuel ih =>
    obtain ⟨fuel', rfl⟩ : ∃ k, fuel' = k + 1 := ⟨fuel' - 1, by omega⟩
    cases turn : (body s).run m with
    | error value => rw [run_loop_stop turn, run_loop_stop turn]
    | ok next =>
      have smaller := decreases s next turn
      rw [run_loop_next turn, run_loop_next turn]
      exact ih (by omega) (by omega)

end Loop

end ReadProg

end Lib
