import DhcpServer.Lib.Memory

/-!
# Logs of writes

What a program does to a memory as a list of writes, apart from any memory: the log tells which
offsets are written, where comparing memories tells only which bytes are changed.
-/

namespace Lib
set_option autoImplicit false

structure Write where
  offset : Nat
  bytes : List Byte

/-- The offset behind the last byte written. -/
def Write.stop (w : Write) : Nat := w.offset + w.bytes.length

/-- The memory after the writes of a log, first to last. -/
def applyWrites (m : Memory) (log : List Write) : Memory := log.foldl (fun m w => m.write w.offset w.bytes) m

/-- No write of the log goes past `bound`. -/
def WritesBelow (bound : Nat) (log : List Write) : Prop := ∀ w ∈ log, w.stop ≤ bound

/-- The number of bytes the writes of a log store. -/
def storedBytes (log : List Write) : Nat := (log.flatMap Write.bytes).length

/-- Each write starts where the one before it stops, the first one at `start`. -/
def Consecutive : (start : Nat) → List Write → Prop
  | _, [] => True
  | start, w :: log => w.offset = start ∧ Consecutive w.stop log

section Log
variable {m : Memory} {log : List Write} {w : Write} {bound bound' : Nat}

@[simp] theorem applyWrites_nil : applyWrites m [] = m := rfl

@[simp] theorem applyWrites_cons : applyWrites m (w :: log) = applyWrites (m.write w.offset w.bytes) log := rfl

theorem writesBelow_nil : WritesBelow bound [] := nofun

theorem writesBelow_cons : WritesBelow bound (w :: log) ↔ w.stop ≤ bound ∧ WritesBelow bound log :=
  List.forall_mem_cons

theorem WritesBelow.mono (below : WritesBelow bound log) (le : bound ≤ bound') : WritesBelow bound' log :=
  fun w member => Nat.le_trans (below w member) le

/-- **Frame.** Past the bound the memory stays. -/
theorem applyWrites_above (below : WritesBelow bound log) {i : Nat} (above : bound ≤ i) :
    applyWrites m log i = m i := by
  induction log generalizing m with
  | nil => rfl
  | cons w log ih =>
    obtain ⟨here, later⟩ := writesBelow_cons.mp below
    rw [applyWrites_cons, ih later]
    exact Memory.write_above m w.offset w.bytes (Nat.le_trans here above)

@[simp] theorem storedBytes_nil : storedBytes [] = 0 := rfl

@[simp] theorem storedBytes_cons : storedBytes (w :: log) = w.bytes.length + storedBytes log := by
  rw [storedBytes, List.flatMap_cons, List.length_append]
  rfl

/-- Consecutive writes stay below a bound when there is room for their bytes. -/
theorem writesBelow_iff_stored {start : Nat} (consecutive : Consecutive start log) (le : start ≤ bound) :
    WritesBelow bound log ↔ start + storedBytes log ≤ bound := by
  induction log generalizing start with
  | nil => exact iff_of_true writesBelow_nil le
  | cons w log ih =>
    obtain ⟨rfl, consecutive⟩ := consecutive
    rw [writesBelow_cons, storedBytes_cons, ← Nat.add_assoc]
    by_cases room : w.stop ≤ bound
    · rw [and_iff_right room, ih consecutive room]
      rfl
    · refine iff_of_false (fun below => room below.1) fun fits => room ?_
      exact Nat.le_trans (Nat.le_add_right _ _) fits

end Log

end Lib
