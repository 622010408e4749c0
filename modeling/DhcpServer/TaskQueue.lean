import DhcpServer.Lib.ShiftArray
import DhcpServer.Message

/-!
# The task queue (`taskQueue`, `submitTask`, `startThread`)

The receive loop submits tasks and workers take them; the mutex makes each section one step.
`submitTask` does not ask whether the array is full. The waiting line, a plain list, is what the
array stands for as long as it never has to hold more than 256 tasks.
-/

namespace DhcpServer
set_option autoImplicit false
open Lib

/-- The length of `taskQueue`. -/
def taskQueueSize : Nat := 256

/-- `taskQueue` and `taskCount`. -/
structure TaskQueue (τ : Type) where
  taskQueue : Vector τ taskQueueSize
  taskCount : Nat

/-- A critical section of some thread. -/
inductive QueueEvent (τ : Type) where
  /-- The receive loop calls `submitTask`. -/
  | submit (task : τ)
  /-- A worker gets the mutex in `startThread`. -/
  | take (worker : Nat)

section Queue
variable {τ : Type}

namespace TaskQueue

/-- The queue as the program starts; `blank` is the zeroed task. -/
def init (blank : τ) : TaskQueue τ where
  taskQueue := .replicate taskQueueSize blank
  taskCount := 0

/-- The section of `submitTask`. -/
def submitTask (q : TaskQueue τ) (task : τ) : Except Nat (TaskQueue τ) := do
  let cells ← writeCell q.taskQueue q.taskCount task
  return ⟨cells, q.taskCount + 1⟩

/-- The section of `startThread`. A worker that finds no task waits, and tries again later. -/
def takeTask (q : TaskQueue τ) : Except Nat (TaskQueue τ × Option τ) :=
  if q.taskCount = 0 then
    .ok (q, none)
  else do
    let task ← readCell q.taskQueue 0
    let cells ← shiftCells (q.taskCount - 1) 0 q.taskQueue
    return (⟨cells, q.taskCount - 1⟩, some task)

def step (q : TaskQueue τ) : QueueEvent τ → Except Nat (TaskQueue τ × Option τ)
  | .submit task => do return (← q.submitTask task, none)
  | .take _ => q.takeTask

/-- An interleaving, earliest event first, and the tasks taken along it. An access outside the
array ends it with the index. -/
def run (q : TaskQueue τ) : List (QueueEvent τ) → Except Nat (TaskQueue τ × List τ)
  | [] => .ok (q, [])
  | event :: rest => do
    let (q', task) ← q.step event
    let (q'', tasks) ← q'.run rest
    return (q'', task.toList ++ tasks)

/-- `taskQueue[0..taskCount)`. -/
def pendingTasks (q : TaskQueue τ) : List τ := contents q.taskQueue q.taskCount

end TaskQueue

/-- The tasks the receive loop submitted. -/
def submitted : List (QueueEvent τ) → List τ
  | [] => []
  | .submit task :: rest => task :: submitted rest
  | .take _ :: rest => submitted rest

/-- How many tasks are waiting after an interleaving that starts with `k`. -/
def pending (k : Nat) : List (QueueEvent τ) → Nat
  | [] => k
  | .submit _ :: rest => pending (k + 1) rest
  | .take _ :: rest => pending (k - 1) rest

/-! ## The waiting line -/

/-- The line an array of any length would stand for. -/
def waiting (line : List τ) : List (QueueEvent τ) → List τ
  | [] => line
  | .submit task :: rest => waiting (line ++ [task]) rest
  | .take _ :: rest => waiting line.tail rest

/-- What the workers take from it. -/
def taken (line : List τ) : List (QueueEvent τ) → List τ
  | [] => []
  | .submit task :: rest => taken (line ++ [task]) rest
  | .take _ :: rest => line.head?.toList ++ taken line.tail rest

/-- **A line loses nothing and keeps the order.** -/
theorem taken_append_waiting (line : List τ) (events : List (QueueEvent τ)) :
    taken line events ++ waiting line events = line ++ submitted events := by
  induction events generalizing line with
  | nil => simp [taken, waiting, submitted]
  | cons event rest ih =>
    cases event with
    | submit task => rw [taken, waiting, submitted, ih, List.append_assoc, List.singleton_append]
    | take worker =>
      rw [taken, waiting, submitted, List.append_assoc, ih]
      cases line <;> rfl

theorem pending_le (k : Nat) (events : List (QueueEvent τ)) : pending k events ≤ k + events.length := by
  induction events generalizing k with
  | nil => exact Nat.le_refl _
  | cons event rest ih =>
    cases event with
    | submit task =>
      have := ih (k + 1)
      rw [pending, List.length_cons]
      omega
    | take worker =>
      have := ih (k - 1)
      rw [pending, List.length_cons]
      omega

/-! ## The array refines the line -/

/-- The array holds the line. -/
structure Holds (q : TaskQueue τ) (line : List τ) : Prop where
  count : q.taskCount = line.length
  fits : q.taskCount ≤ taskQueueSize
  cells : q.pendingTasks = line

theorem Holds.init (blank : τ) : Holds (.init blank) [] where
  count := rfl
  fits := Nat.zero_le _
  cells := rfl

section Refine
variable {q q' : TaskQueue τ} {line : List τ} {task : τ} {tasks : List τ} {events : List (QueueEvent τ)}

theorem submitTask_holds (holds : Holds q line) (room : line.length < taskQueueSize) (task : τ) :
    ∃ q', q.submitTask task = .ok q' ∧ Holds q' (line ++ [task]) := by
  have inside : q.taskCount < taskQueueSize := by rwa [holds.count]
  refine ⟨⟨q.taskQueue.set q.taskCount task, q.taskCount + 1⟩, ?_, ?_, inside, ?_⟩
  · rw [TaskQueue.submitTask, writeCell_inside inside]
    rfl
  · rw [List.length_append, ← holds.count]
    rfl
  · rw [TaskQueue.pendingTasks, contents_push inside, ← TaskQueue.pendingTasks, holds.cells]

/-- A full array is overrun by the next task. -/
theorem submitTask_overruns (holds : Holds q line) (full : line.length = taskQueueSize) (task : τ) :
    q.submitTask task = .error taskQueueSize := by
  rw [TaskQueue.submitTask, holds.count, full, writeCell_outside (Nat.le_refl _)]
  rfl

theorem takeTask_holds (holds : Holds q line) :
    ∃ q', q.takeTask = .ok (q', line.head?) ∧ Holds q' line.tail := by
  cases line with
  | nil =>
    have none_waiting : q.taskCount = 0 := holds.count
    exact ⟨q, by rw [TaskQueue.takeTask, if_pos none_waiting]; rfl, holds⟩
  | cons task line =>
    have count : q.taskCount = line.length + 1 := holds.count
    have inside : line.length < taskQueueSize := by
      rw [← Nat.succ_le_iff, Nat.succ_eq_add_one, ← count]
      exact holds.fits
    obtain ⟨shifted, returns, dropped⟩ := @contents_shift _ _ q.taskQueue _ inside
    have cells := holds.cells
    rw [TaskQueue.pendingTasks, count, dropped] at cells
    obtain ⟨first, rest⟩ := List.cons.inj cells
    refine ⟨⟨shifted, line.length⟩, ?_, rfl, Nat.le_of_lt inside, rest⟩
    rw [TaskQueue.takeTask, if_neg (by omega), count, readCell_inside (by decide), Nat.add_sub_cancel]
    simp only [bind, Except.bind, returns, first]
    rfl

theorem run_cons {event : QueueEvent τ} {next : TaskQueue τ} {out : Option τ}
    (stepped : q.step event = .ok (next, out)) (ran : next.run events = .ok (q', tasks)) :
    q.run (event :: events) = .ok (q', out.toList ++ tasks) := by
  simp only [TaskQueue.run, stepped, ran, bind, Except.bind, pure, Except.pure]

theorem run_cons_inv {event : QueueEvent τ} (ran : q.run (event :: events) = .ok (q', tasks)) :
    ∃ next out tail, q.step event = .ok (next, out) ∧ next.run events = .ok (q', tail) := by
  simp only [TaskQueue.run, bind, Except.bind] at ran
  split at ran
  · cases ran
  · rename_i stepped
    split at ran
    · cases ran
    · rename_i rest
      cases ran
      exact ⟨_, _, _, stepped, rest⟩

/-- **Within the capacity the array runs as the line does.** -/
theorem run_holds (holds : Holds q line)
    (room : ∀ front, front <+: events → pending line.length front ≤ taskQueueSize) :
    ∃ q', q.run events = .ok (q', taken line events) ∧ Holds q' (waiting line events) := by
  induction events generalizing q line with
  | nil => exact ⟨q, rfl, holds⟩
  | cons event rest ih =>
    cases event with
    | submit task =>
      have short : line.length < taskQueueSize := room [.submit task] ⟨rest, rfl⟩
      obtain ⟨next, stepped, holds'⟩ := submitTask_holds holds short task
      obtain ⟨last, ran, stands⟩ := ih holds' fun front initial => by
        rw [List.length_append]
        exact room (.submit task :: front) (List.cons_prefix_cons.mpr ⟨rfl, initial⟩)
      exact ⟨last, run_cons (by rw [TaskQueue.step, stepped]; rfl) ran, stands⟩
    | take worker =>
      obtain ⟨next, stepped, holds'⟩ := takeTask_holds holds
      obtain ⟨last, ran, stands⟩ := ih holds' fun front initial => by
        rw [List.length_tail]
        exact room (.take worker :: front) (List.cons_prefix_cons.mpr ⟨rfl, initial⟩)
      exact ⟨last, run_cons stepped ran, stands⟩

/-- An interleaving that gets past every access has stayed within the capacity. -/
theorem pending_of_run (holds : Holds q line) (ran : q.run events = .ok (q', tasks)) :
    pending line.length events ≤ taskQueueSize := by
  induction events generalizing q line tasks with
  | nil =>
    rw [pending, ← holds.count]
    exact holds.fits
  | cons event rest ih =>
    obtain ⟨next, out, tail, stepped, ran'⟩ := run_cons_inv ran
    cases event with
    | submit task =>
      have fits := holds.fits
      rw [holds.count] at fits
      rcases Nat.lt_or_eq_of_le fits with short | full
      · obtain ⟨next', stepped', holds'⟩ := submitTask_holds holds short task
        rw [TaskQueue.step, stepped'] at stepped
        cases stepped
        have bound := ih holds' ran'
        rwa [List.length_append] at bound
      · rw [TaskQueue.step, submitTask_overruns holds full] at stepped
        cases stepped
    | take worker =>
      obtain ⟨next', stepped', holds'⟩ := takeTask_holds holds
      rw [TaskQueue.step, stepped'] at stepped
      cases stepped
      have bound := ih holds' ran'
      rwa [List.length_tail] at bound

/-- One task more than there is room for overruns the array. -/
theorem run_submits (holds : Holds q line) {k : Nat} (full : line.length + k = taskQueueSize) (task : τ) :
    q.run (List.replicate (k + 1) (.submit task)) = .error taskQueueSize := by
  induction k generalizing q line with
  | zero =>
    rw [List.replicate_one, TaskQueue.run, TaskQueue.step, submitTask_overruns holds full]
    rfl
  | succ k ih =>
    obtain ⟨next, stepped, holds'⟩ := submitTask_holds holds (by omega) task
    have overruns := ih holds' (by rw [List.length_append, List.length_singleton]; omega)
    rw [List.replicate_succ, TaskQueue.run, TaskQueue.step, stepped]
    simp only [bind, Except.bind, pure, Except.pure, overruns]

end Refine

/-- **The task queue stays inside its array exactly when at most 256 tasks are ever waiting.** -/
theorem queue_inside_iff (blank : τ) (events : List (QueueEvent τ)) :
    (∀ front, front <+: events → ∃ q tasks, (TaskQueue.init blank).run front = .ok (q, tasks) ∧
      q.taskCount ≤ taskQueueSize) ↔
    ∀ front, front <+: events → pending 0 front ≤ taskQueueSize := by
  constructor
  · intro inside front initial
    obtain ⟨q, tasks, ran, -⟩ := inside front initial
    exact pending_of_run (.init blank) ran
  · intro room front initial
    obtain ⟨q, ran, holds⟩ := run_holds (.init blank) fun first earlier => room first (earlier.trans initial)
    exact ⟨q, _, ran, holds.fits⟩

/-- The receive loop takes in 257 datagrams before a worker gets the mutex. -/
theorem queue_overrun : (TaskQueue.init (ClientTask.ofDatagram [] Memory.zero)).run
    (List.replicate 257 (.submit (ClientTask.ofDatagram [] Memory.zero))) = .error 256 :=
  run_submits (.init _) (show 0 + 256 = taskQueueSize from rfl) _

/-- **First in, first out, none lost and none twice.** As long as at most 256 tasks are waiting, the
tasks taken followed by those still in the array are the tasks submitted. -/
theorem queue_fifo (blank : τ) (events : List (QueueEvent τ))
    (room : ∀ front, front <+: events → pending 0 front ≤ taskQueueSize) :
    ∃ q tasks, (TaskQueue.init blank).run events = .ok (q, tasks) ∧
      tasks ++ q.pendingTasks = submitted events := by
  obtain ⟨q, ran, holds⟩ := run_holds (.init blank) room
  refine ⟨q, _, ran, ?_⟩
  rw [holds.cells, taken_append_waiting, List.nil_append]

theorem queue_fifo_two_workers : ∃ q tasks,
    (TaskQueue.init (ClientTask.ofDatagram [] Memory.zero)).run
      [.take 0, .submit (ClientTask.ofDatagram [1#8] Memory.zero),
        .submit (ClientTask.ofDatagram [2#8] Memory.zero), .take 1,
        .submit (ClientTask.ofDatagram [3#8] Memory.zero), .take 0] = .ok (q, tasks) ∧
    tasks ++ q.pendingTasks = [ClientTask.ofDatagram [1#8] Memory.zero,
      ClientTask.ofDatagram [2#8] Memory.zero, ClientTask.ofDatagram [3#8] Memory.zero] := by
  apply queue_fifo
  intro front initial
  have few := initial.length_le
  have bound := pending_le 0 front
  simp only [List.length_cons, List.length_nil] at few
  rw [taskQueueSize]
  omega

end Queue

end DhcpServer
