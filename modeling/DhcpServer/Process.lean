import DhcpServer.Lib.Pipeline
import DhcpServer.LinkedServer
import DhcpServer.TaskQueue

/-!
# The process (`main`, `submitTask`, `startThread`)

The receive loop of `main` makes a task of every datagram and submits it; the worker takes the tasks and
calls `handle_client`. The two threads share `taskQueue`, under its mutex; the pool, the bindings and the
configuration are the worker's alone once the loop runs. Every interleaving of the two is a run of the list
server on the datagrams in the order of their arrival, as long as no more than 256 tasks are pending. The runs
in which `submitTask` comes to a full array and overruns it are left out: the process has no step for it.
-/

namespace DhcpServer
set_option autoImplicit false
open Lib

/-- The bytes of a `ClientTask` behind its buffer: `client_len`, `recv_bytes` and `client_addr`. -/
def taskTail : Nat := 32

/-- The worker's copy of a task, with other memory behind it. -/
def ClientTask.copy (task : ClientTask) (beyond : Memory) : ClientTask where
  buffer := task.buffer
  after := fun i => if i < taskTail then task.after i else beyond (i - taskTail)

/-- What the C library answers while a task is handled, and what lies behind the worker's copy of it. -/
structure Circumstances where
  beyond : Memory
  now : Int
  mallocOk : Bool
  block : Nat
  sendOk : Bool

/-- The call `handle_client(&task)`. -/
def linkedTurn (circumstances : Circumstances) (task : ClientTask) : LinkedTurn where
  turn := {
    task := task.copy circumstances.beyond
    now := circumstances.now
    mallocOk := circumstances.mallocOk
    sendOk := circumstances.sendOk }
  block := circumstances.block

section Buffer
variable {q q' : TaskQueue ClientTask} {line : List ClientTask} {task : ClientTask}

/-- There is no step for a submission exactly where 256 tasks are pending. -/
theorem taskBuffer_full_iff (holds : Holds q line) (task : ClientTask) :
    (q.submitTask task).toOption = none ↔ line.length = taskQueueSize := by
  constructor
  · intro none
    have fits := holds.fits
    rw [holds.count] at fits
    by_contra other
    obtain ⟨q', submits, -⟩ := submitTask_holds holds (Nat.lt_of_le_of_ne fits other) task
    rw [submits] at none
    cases none
  · intro full
    rw [submitTask_overruns holds full]
    rfl

theorem taskBuffer_push (holds : Holds q line) (pushed : (q.submitTask task).toOption = some q') :
    Holds q' (line ++ [task]) := by
  have fits := holds.fits
  rw [holds.count] at fits
  have room : line.length ≠ taskQueueSize := by
    intro full
    rw [(taskBuffer_full_iff holds task).mpr full] at pushed
    cases pushed
  obtain ⟨q'', submits, holds'⟩ := submitTask_holds holds (Nat.lt_of_le_of_ne fits room) task
  rw [submits] at pushed
  cases pushed
  exact holds'

theorem taskBuffer_pop (holds : Holds q line) :
    ∃ q', q.takeTask.toOption = some (q', line.head?) ∧ Holds q' line.tail := by
  obtain ⟨q', takes, holds'⟩ := takeTask_holds holds
  exact ⟨q', by rw [takes]; rfl, holds'⟩

end Buffer

/-- `taskQueue`. A run of the process ends in front of a `submitTask` past its end. -/
def taskBuffer : Buffer (TaskQueue ClientTask) ClientTask where
  push := fun q task => (q.submitTask task).toOption
  pop := fun q => q.takeTask.toOption
  Holds := Holds
  push_holds := taskBuffer_push
  pop_holds := taskBuffer_pop

/-- The main thread with the task it has made, `taskQueue`, the worker with its task, and what it works on. -/
abbrev Process := Pipeline (TaskQueue ClientTask) ClientTask LinkedServer

/-- What the threads did, newest first: `recvfrom`, `submitTask`, a task taken, `handle_client`. -/
abbrev Activity := List (PipelineEvent ClientTask Circumstances × Option (ClientTask × Action))

/-- The process as its loops start. -/
def Process.start (pool : IpPoolInd) (config : DhcpConfig) : Process :=
  Pipeline.start (TaskQueue.init (ClientTask.ofDatagram [] Memory.zero)) (LinkedServer.fresh pool config)

/-- The threads of the process, in any order in which at most 256 tasks are ever pending. -/
def process : Machine Process (PipelineEvent ClientTask Circumstances) (Option (ClientTask × Action)) :=
  pipeline taskBuffer linkedTurn serveLinks

/-- The calls of `handle_client`. -/
def served (h : Activity) : History := (emitted (handled linkedTurn) h).map fun e => (e.1.turn, e.2)

/-- The blocks `malloc` answers with are not in use. -/
def MallocsFree (p : Process) (h : Activity) : Prop := EachStep process p h (WhenHandling linkedTurn Allocates)

section Process
variable {pool : IpPoolInd} {config : DhcpConfig} {h : Activity} {p : Process}

/-- The list server follows the process. -/
theorem process_follows (run : Run process (Process.start pool config) h p)
    (mallocs : MallocsFree (Process.start pool config) h) :
    ∃ s, Run serve (Server.fresh pool config) (served h) s ∧ Stores p.server s := by
  obtain ⟨s, run', -, stores⟩ := Run.simulated (pipeline_simulation (linked_simulation pool))
    ⟨Allocated.fresh pool config, Stores.fresh pool config⟩ run mallocs
  refine ⟨s, ?_, stores⟩
  have same : emitted (fun e => (handled linkedTurn e).bind unlinked) h = served h := by
    rw [served, emitted, emitted, List.map_filterMap]
    congr 1
    funext e
    cases handled linkedTurn e <;> rfl
  rwa [same] at run'

/-- The tasks handled, in hand, in the array and not submitted yet are those made of the datagrams. -/
theorem process_fifo (run : Run process (Process.start pool config) h p) :
    handledItems h ++ p.inHand.toList ++ p.buffer.pendingTasks ++ p.received.toList = receivedItems h := by
  obtain ⟨line, holds, order⟩ := pipeline_fifo (show taskBuffer.Holds _ [] from Holds.init _) run
  rwa [← Holds.cells holds] at order

/-- **The process is the sequential server.** However the receive loop and the worker take turns without more
than 256 pending tasks, the worker has handled the datagrams in the order of their arrival, none lost and none
twice, up to the tasks still on their way; what it did is a run of the list server; and its bindings in memory
are that server's. -/
theorem process_linearizes (run : Run process (Process.start pool config) h p)
    (mallocs : MallocsFree (Process.start pool config) h) :
    (∃ s, Run serve (Server.fresh pool config) (served h) s ∧ Stores p.server s) ∧
      List.Forall₂ (fun (e : Turn × Action) task => ∃ circumstances, e.1 = (linkedTurn circumstances task).turn)
        (served h).reverse (handledItems h) ∧
      handledItems h ++ p.inHand.toList ++ p.buffer.pendingTasks ++ p.received.toList = receivedItems h := by
  refine ⟨process_follows run mallocs, ?_, process_fifo run⟩
  rw [served, ← List.map_reverse, List.forall₂_map_left_iff]
  refine (pipeline_inputs run).imp ?_
  rintro e task ⟨circumstances, same⟩
  exact ⟨circumstances, congrArg LinkedTurn.turn same⟩

/-- `MallocsFree`, as a test. -/
def mallocsFreeTest (p : Process) : PipelineEvent ClientTask Circumstances → Bool
  | .receive _ => true
  | .push => true
  | .pop => true
  | .handle circumstances => (p.server.bindings.nodes circumstances.block).isNone

theorem mallocsFree_of_guarded (run : Run (guarded mallocsFreeTest process) (Process.start pool config) h p) :
    Run process (Process.start pool config) h p ∧ MallocsFree (Process.start pool config) h := by
  obtain ⟨run', each⟩ := run.of_guarded
  refine ⟨run', each.imp fun q event passes => ?_⟩
  cases event with
  | receive task => trivial
  | push => trivial
  | pop => trivial
  | handle circumstances => exact fun _ _ _ => Option.isNone_iff_eq_none.mp passes

/-- The library's calls succeed, and `malloc` answers with a block. -/
def succeeding (block : Nat) : Circumstances where
  beyond := Memory.zero
  now := 0
  mallocOk := true
  block := block
  sendOk := true

/-- Two clients' DISCOVERs; the second one comes in while the worker has the first one's. -/
def twoDatagrams : List (PipelineEvent ClientTask Circumstances) :=
  [.receive (discover macA).task, .push, .pop, .receive (discover macB).task, .push, .handle (succeeding 7),
    .receive (requestFor macA 0xC0A80110#32).task]

theorem process_linearizes_two_datagrams : ∃ (h : Activity) (p : Process), h.map Prod.fst = twoDatagrams.reverse ∧
    (∃ s, Run serve (Server.fresh lanPool lanConfig) (served h) s ∧ Stores p.server s) ∧
      List.Forall₂ (fun (e : Turn × Action) task => ∃ circumstances, e.1 = (linkedTurn circumstances task).turn)
        (served h).reverse (handledItems h) ∧
      handledItems h ++ p.inHand.toList ++ p.buffer.pendingTasks ++ p.received.toList = receivedItems h ∧
      p.server.bindings.first = some 7 ∧ p.buffer.taskCount = 1 := by
  obtain ⟨p, h, guarded, inputs, check⟩ := @Run.of_check _ _ _ (guarded mallocsFreeTest process)
    (Process.start lanPool lanConfig) twoDatagrams
    (fun p _ => p.server.bindings.first == some 7 && p.buffer.taskCount == 1) (by decide)
  obtain ⟨run, mallocs⟩ := mallocsFree_of_guarded guarded
  simp only [Bool.and_eq_true, beq_iff_eq] at check
  obtain ⟨follows, inputs', order⟩ := process_linearizes run mallocs
  exact ⟨h, p, inputs, follows, inputs', order, check.1, check.2⟩

/-! ## Working off what is waiting -/

/-- Only a failed `sendto` makes a handler leave the process. -/
theorem handleClient_not_exited {s : Server} {turn : Turn} (sends : turn.sendOk = true) :
    handleClient s turn ≠ .exited := by
  unfold handleClient
  split
  · nofun
  · unfold sendDHCPOffer
    split
    · nofun
    · split
      · nofun
      · split
        · nofun
        · split <;> nofun
  · unfold sendDHCPAck
    split
    · nofun
    · simp [sends]
  · unfold handleDHCPDecline
    dsimp only
    split
    · nofun
    · split <;> nofun
  · unfold handleDHCPRelease
    dsimp only
    split
    · nofun
    · split <;> nofun
  · simp [handleDHCPInformReply, sends]
  · simp [sendDHCPNACK, sends]

/-- The C library does what the worker relies on: the block `malloc` answers with, if it does, is not in use,
and `sendto` succeeds. -/
def Serves (choose : LinkedServer → ClientTask → Circumstances) : Prop :=
  ∀ c task, Allocates c (linkedTurn (choose c task) task) ∧ (choose c task).sendOk = true

/-- A reachable server answers every task. -/
theorem process_answers (pool : IpPoolInd) (config : DhcpConfig)
    {choose : LinkedServer → ClientTask → Circumstances} (serves : Serves choose) :
    NeverRefuses linkedTurn serveLinks
      (fun c => ∃ s h, Run serve (Server.fresh pool config) h s ∧ Stores c s) Allocates choose := by
  rintro c task ⟨s, h, run, stores⟩
  obtain ⟨free, sends⟩ := serves c task
  refine ⟨free, ?_⟩
  have agrees := handleClientLinks_agrees stores (Allocated.of_run run).short free
  have returns : handleClient s (linkedTurn (choose c task) task).turn ≠ .exited := handleClient_not_exited sends
  have ends := handleClient_not_hung run (linkedTurn (choose c task) task).turn
  unfold serveLinks
  generalize handleClientLinks c (linkedTurn (choose c task) task) = linked at agrees
  generalize handled : handleClient s (linkedTurn (choose c task) task).turn = outcome at agrees returns ends
  cases agrees with
  | @returned c' t stores' action => exact ⟨c', action, rfl, t, _, run.snoc (serve_of_returned handled), stores'⟩
  | exited => exact (returns rfl).elim
  | hung => exact (ends rfl).elim

/-- **The worker works off everything submitted.** Whatever the process has come to without more than 256 pending
tasks, and whatever the C library answers from then on as long as it serves, the worker by itself empties the
array; and the datagrams received, but for one not submitted yet, are handled. -/
theorem process_drains (run : Run process (Process.start pool config) h p)
    (mallocs : MallocsFree (Process.start pool config) h)
    (choose : LinkedServer → ClientTask → Circumstances) (serves : Serves choose) :
    ∃ h' q, Run process p h' q ∧ EachStep process p h' (Consumes choose) ∧
      q.inHand = none ∧ q.buffer.pendingTasks = [] ∧
      handledItems (h' ++ h) ++ p.received.toList = receivedItems h ∧
      ∃ s, Run serve (Server.fresh pool config) (served (h' ++ h)) s ∧ Stores q.server s := by
  obtain ⟨line, holds, -⟩ := pipeline_fifo (show taskBuffer.Holds _ [] from Holds.init _) run
  obtain ⟨s, run', stores⟩ := process_follows run mallocs
  obtain ⟨h', q, drained, ready, empty⟩ :=
    pipeline_drains (process_answers pool config serves) holds ⟨s, _, run', stores⟩
  have whole : Run process (Process.start pool config) (h' ++ h) q := run.trans drained.run
  have cells : q.buffer.pendingTasks = [] := Holds.cells empty
  have order := process_fifo whole
  rw [ready, cells, drained.keeps, receivedItems_append, drained.nothing] at order
  refine ⟨h', q, drained.run, drained.own, ready, cells, by simpa using order, ?_⟩
  exact process_follows whole (.trans run mallocs drained.run drained.cond)

/-- A library whose memory is spent sends all the same. -/
def spent (_ : LinkedServer) (_ : ClientTask) : Circumstances := { succeeding 0 with mallocOk := false }

theorem process_drains_two_datagrams : ∃ (h h' : Activity) (p q : Process), h.map Prod.fst = twoDatagrams.reverse ∧
    p.buffer.taskCount = 1 ∧ Run process p h' q ∧ EachStep process p h' (Consumes spent) ∧
    q.inHand = none ∧ q.buffer.pendingTasks = [] ∧
    handledItems (h' ++ h) ++ p.received.toList = receivedItems h ∧
    ∃ s, Run serve (Server.fresh lanPool lanConfig) (served (h' ++ h)) s ∧ Stores q.server s := by
  obtain ⟨p, h, guarded, inputs, check⟩ := @Run.of_check _ _ _ (guarded mallocsFreeTest process)
    (Process.start lanPool lanConfig) twoDatagrams (fun p _ => p.buffer.taskCount == 1) (by decide)
  obtain ⟨run, mallocs⟩ := mallocsFree_of_guarded guarded
  obtain ⟨h', q, drained⟩ := process_drains run mallocs spent fun _ _ => ⟨nofun, rfl⟩
  exact ⟨h, h', p, q, inputs, eq_of_beq check, drained⟩

end Process

end DhcpServer
