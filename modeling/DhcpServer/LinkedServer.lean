import DhcpServer.Lib.LinkedList
import DhcpServer.Lib.Simulation
import DhcpServer.Safety
import Mathlib.Data.List.Perm.Subperm

/-!
# The handlers on linked bindings

The bindings as `queue.h` keeps them: nodes that `malloc` made, linked to one another. Every look at a
binding goes through a pointer, and `none` is a look through a pointer to a node that is not there, a freed
one for instance. The server with a list for its bindings is what these handlers compute.
-/

namespace DhcpServer
set_option autoImplicit false
open Lib

/-- The state the handlers share, with the bindings in memory. -/
structure LinkedServer where
  pool : IpPoolInd
  bindings : Links IpBinding
  config : DhcpConfig

/-- A turn, and the block `malloc` answers with when it succeeds. -/
structure LinkedTurn where
  turn : Turn
  block : Nat

inductive LinkedOutcome where
  | returned (server : LinkedServer) (action : Action)
  | exited
  | hung

/-- The most turns a walk along the bindings is followed for: more than there are addresses. -/
def walkBound : Nat := 2 ^ 32 + 1

/-- `init_binding_list`. -/
def initBindingList : Links IpBinding := Links.empty

/-- `main`'s state after reading its configuration. -/
def LinkedServer.fresh (pool : IpPoolInd) (config : DhcpConfig) : LinkedServer where
  pool := pool
  bindings := initBindingList
  config := config

section Source
variable (bindings : Links IpBinding)

/-- `is_ip_available`. -/
def isIpAvailableLinks (pool : IpPoolInd) (ipToCheck : BitVec 32) : Option Bool :=
  if ipToCheck < pool.ipFirst || ipToCheck > pool.ipLast then
    some false
  else
    (bindings.find (fun binding => binding.address == ipToCheck) walkBound bindings.first).map Option.isNone

/-- `offer_ip_available`; within, `none` is the loop that never ends. -/
def offerIpAvailableLinks (pool : IpPoolInd) : Option (Option (BitVec 32 × IpPoolInd)) := do
  match ← scanM (isIpAvailableLinks bindings pool) pool.ipLast (2 ^ 32) (pool.ipCurrent + 1) with
  | none => pure none
  | some none => pure (some (0#32, pool))
  | some (some ip) => pure (some (ip, { pool with ipCurrent := ip }))

/-- `search_binding`: the pointer it returns. -/
def searchBindingLinks (ident : ClientIdent) (isStatic : Assignment) (status : BindingStatus) : Option (Option Nat) :=
  bindings.find (IpBinding.matches ident isStatic status) walkBound bindings.first

/-- `display_binding_list`: the elements it prints. -/
def displayBindingListLinks : Option (List IpBinding) := bindings.walk walkBound bindings.first

/-- `binding->address`. -/
def addressLinks (binding : Nat) : Option (BitVec 32) := (bindings.nodes binding).map fun n => n.value.address

end Source

def sendDHCPOfferLinks (s : LinkedServer) (turn : LinkedTurn) : Option LinkedOutcome :=
  if s.pool.ipCurrent ≥ s.pool.ipLast then
    some (.returned s .exhausted)
  else
    match offerIpAvailableLinks s.bindings s.pool with
    | none => none
    | some none => some .hung
    | some (some (offeredIp, pool)) =>
      if offeredIp = 0#32 then
        some (.returned { s with pool := pool } .exhausted)
      else if !turn.turn.mallocOk then
        some (.returned { s with pool := pool } .outOfMemory)
      else do
        let bindings ← s.bindings.insertHead turn.block (newBinding turn.turn s.config offeredIp)
        let _ ← displayBindingListLinks bindings
        let offer := offerMessage turn.turn.request offeredIp s.config
        pure (.returned { s with pool := pool, bindings := bindings }
          (.offered offeredIp ⟨offer, broadcastAddr⟩ turn.turn.sendOk))

def sendDHCPAckLinks (s : LinkedServer) (turn : LinkedTurn) : Option LinkedOutcome := do
  match ← searchBindingLinks s.bindings turn.turn.ackKey .staticOrDynamic .associated with
  | none => pure (.returned s .noBinding)
  | some binding =>
    let address ← addressLinks s.bindings binding
    let config := ackConfig s.config
    if turn.turn.sendOk then
      pure (.returned { s with config := config }
        (.acked ⟨ackMessage turn.turn.request address config, broadcastAddr⟩))
    else
      pure .exited

def handleDHCPDeclineLinks (s : LinkedServer) (turn : LinkedTurn) : Option LinkedOutcome := do
  let declinedIp := ntohl turn.turn.request.yiaddr
  match ← searchBindingLinks s.bindings turn.turn.ident .dynamic .associated with
  | none => pure (.returned s .refused)
  | some binding =>
    let address ← addressLinks s.bindings binding
    if address = declinedIp then
      let bindings ← s.bindings.remove binding
      pure (.returned { s with bindings := bindings } (.declined declinedIp))
    else
      pure (.returned s .refused)

def handleDHCPReleaseLinks (s : LinkedServer) (turn : LinkedTurn) : Option LinkedOutcome := do
  let releasedIp := ntohl turn.turn.request.ciaddr
  match ← searchBindingLinks s.bindings turn.turn.ident .staticOrDynamic .associated with
  | none => pure (.returned s .refused)
  | some binding =>
    let address ← addressLinks s.bindings binding
    if address = releasedIp then
      let bindings ← s.bindings.edit (fun b => some b.release) binding
      pure (.returned { s with bindings := bindings } (.released releasedIp))
    else
      pure (.returned s .refused)

def handleDHCPInformReplyLinks (s : LinkedServer) (turn : LinkedTurn) : LinkedOutcome :=
  if turn.turn.sendOk then
    .returned s (.informed ⟨informReply turn.turn.request s.config, turn.turn.task.clientAddr⟩)
  else
    .exited

def sendDHCPNACKLinks (s : LinkedServer) (turn : LinkedTurn) : LinkedOutcome :=
  if turn.turn.sendOk then
    .returned s (.nacked ⟨nackMessage turn.turn.request, turn.turn.task.clientAddr⟩)
  else
    .exited

/-- `handle_client`; `none` is a look at a node that is not there. -/
def handleClientLinks (s : LinkedServer) (turn : LinkedTurn) : Option LinkedOutcome :=
  match dispatch turn.turn.task with
  | .ignore => some (.returned s .ignored)
  | .offer => sendDHCPOfferLinks s turn
  | .ack => sendDHCPAckLinks s turn
  | .decline => handleDHCPDeclineLinks s turn
  | .release => handleDHCPReleaseLinks s turn
  | .inform => some (handleDHCPInformReplyLinks s turn)
  | .nack => some (sendDHCPNACKLinks s turn)

def serveLinks : Machine LinkedServer LinkedTurn Action := fun s turn =>
  match handleClientLinks s turn with
  | some (.returned t action) => some (t, action)
  | some .exited => none
  | some .hung => none
  | none => none

/-! ## What the nodes store -/

/-- The nodes are the bindings of the list, and the rest of the state is the same. -/
structure Stores (c : LinkedServer) (s : Server) : Prop where
  pool : c.pool = s.pool
  config : c.config = s.config
  bindings : ∃ xs, Lists c.bindings xs ∧ xs.map Prod.snd = s.bindings

/-- The handlers do the same, and never look at a node that is not there. -/
inductive Agrees : Option LinkedOutcome → Outcome → Prop where
  | returned {c : LinkedServer} {s : Server} (stores : Stores c s) (action : Action) :
      Agrees (some (.returned c action)) (.returned s action)
  | exited : Agrees (some .exited) .exited
  | hung : Agrees (some .hung) .hung

section Walks
variable {h : Links IpBinding} {xs : List (Nat × IpBinding)} {list : BindingList} {pool : IpPoolInd}

theorem isIpAvailableLinks_eq (lists : Lists h xs) (values : xs.map Prod.snd = list) (short : list.length ≤ walkBound)
    (ip : BitVec 32) : isIpAvailableLinks h pool ip = some (isIpAvailable pool list ip) := by
  subst values
  rw [List.length_map] at short
  unfold isIpAvailableLinks isIpAvailable
  split
  · rfl
  · rw [lists.toRepresents.find short, Option.map_some, List.any_map]
    congr 1
    rw [Bool.eq_iff_iff]
    simp

theorem offerIpAvailableLinks_eq (lists : Lists h xs) (values : xs.map Prod.snd = list)
    (short : list.length ≤ walkBound) : offerIpAvailableLinks h pool = some (offerIpAvailable pool list) := by
  have scanned : scanM (isIpAvailableLinks h pool) pool.ipLast (2 ^ 32) (pool.ipCurrent + 1) =
      some (scan (isIpAvailable pool list) pool.ipLast (2 ^ 32) (pool.ipCurrent + 1)) :=
    scanM_pure (isIpAvailableLinks_eq lists values short) _ _ _
  rw [offerIpAvailableLinks, scanned, offerIpAvailable]
  rcases scan (isIpAvailable pool list) pool.ipLast (2 ^ 32) (pool.ipCurrent + 1) with _ | _ | ip <;> rfl

/-- Both searches fail, or both find the same binding. -/
theorem searchBindingLinks_cases (lists : Lists h xs) (values : xs.map Prod.snd = list)
    (short : list.length ≤ walkBound) (ident : ClientIdent) (wanted : Assignment) (status : BindingStatus) :
    (searchBindingLinks h ident wanted status = some none ∧ searchBinding list ident wanted status = none) ∨
    ∃ front p v back b, xs = front ++ (p, v) :: back ∧ searchBindingLinks h ident wanted status = some (some p) ∧
      searchBinding list ident wanted status = some b ∧ addressLinks h p = some (list.get b).address ∧
      (front ++ back).map Prod.snd = removeBinding list b ∧
      ∀ f, (front ++ (p, f v) :: back).map Prod.snd = updateBinding list b f := by
  subst values
  rw [List.length_map] at short
  rcases lists.toRepresents.find_cases short (IpBinding.matches ident wanted status) with
    failed | ⟨front, p, v, back, b, rfl, found, searched, index, value⟩
  · exact Or.inl failed
  · have there := lists.toRepresents.node
    have position : b.val = (front.map Prod.snd).length := index.trans (List.length_map _).symm
    have split (w : IpBinding) : (front ++ (p, w) :: back).map Prod.snd =
        front.map Prod.snd ++ w :: back.map Prod.snd := List.map_append
    refine Or.inr ⟨front, p, v, back, b, rfl, found, searched, ?_, ?_, fun f => ?_⟩
    · rw [addressLinks, there, value]
      rfl
    · rw [removeBinding, position, split, eraseIdx_split, List.map_append]
    · rw [updateBinding, position, split, split, modify_split]

end Walks

/-- The block `malloc` answers with, if it does, is not in use. -/
def Allocates (c : LinkedServer) (turn : LinkedTurn) : Prop :=
  turn.turn.mallocOk = true → c.bindings.nodes turn.block = none

/-! ## Handler by handler -/

section Handlers
variable {c : LinkedServer} {s : Server} {turn : LinkedTurn}

theorem Stores.withPool (stores : Stores c s) (pool : IpPoolInd) :
    Stores { c with pool := pool } { s with pool := pool } where
  pool := rfl
  config := stores.config
  bindings := stores.bindings

theorem Stores.withBindings (stores : Stores c s) {h : Links IpBinding} {xs : List (Nat × IpBinding)}
    {list : BindingList} (lists : Lists h xs) (values : xs.map Prod.snd = list) :
    Stores { c with bindings := h } { s with bindings := list } where
  pool := stores.pool
  config := stores.config
  bindings := ⟨xs, lists, values⟩

/-- A new binding goes to a block that is free. -/
theorem sendDHCPOfferLinks_agrees (stores : Stores c s) (short : s.bindings.length < walkBound)
    (free : Allocates c turn) : Agrees (sendDHCPOfferLinks c turn) (sendDHCPOffer s turn.turn) := by
  obtain ⟨xs, lists, values⟩ := stores.bindings
  unfold sendDHCPOfferLinks sendDHCPOffer
  rw [stores.pool, offerIpAvailableLinks_eq lists values (Nat.le_of_lt short)]
  split
  · exact .returned stores _
  · rcases offerIpAvailable s.pool s.bindings with _ | ⟨ip, pool⟩
    · exact .hung
    · dsimp only
      split
      · exact .returned (stores.withPool pool) _
      · split
        · exact .returned (stores.withPool pool) _
        · rename_i allocated
          have unused := free (by simpa using allocated)
          obtain ⟨h, inserted, lists'⟩ := lists.insertHead unused (newBinding turn.turn s.config ip)
          have few : ((turn.block, newBinding turn.turn s.config ip) :: xs).length ≤ walkBound := by
            rw [List.length_cons, ← List.length_map Prod.snd, values]
            exact short
          have displayed := lists'.toRepresents.walk few
          rw [stores.config, inserted]
          simp only [Option.bind_eq_bind, Option.bind_some, displayBindingListLinks, displayed]
          refine .returned ?_ _
          exact ⟨rfl, rfl, _, lists', by rw [List.map_cons, values]⟩

theorem sendDHCPAckLinks_agrees (stores : Stores c s) (short : s.bindings.length < walkBound) :
    Agrees (sendDHCPAckLinks c turn) (sendDHCPAck s turn.turn) := by
  obtain ⟨xs, lists, values⟩ := stores.bindings
  have searches := searchBindingLinks_cases lists values (Nat.le_of_lt short) turn.turn.ackKey .staticOrDynamic
    .associated
  unfold sendDHCPAckLinks sendDHCPAck
  rw [stores.config]
  rcases searches with ⟨linked, searched⟩ | ⟨front, p, v, back, b, -, linked, searched, address, -, -⟩
  · rw [linked, searched]
    exact .returned stores _
  · rw [linked, searched]
    simp only [Option.bind_eq_bind, Option.bind_some, address]
    split
    · refine .returned ?_ _
      exact ⟨stores.pool, rfl, stores.bindings⟩
    · exact .exited

theorem handleDHCPDeclineLinks_agrees (stores : Stores c s) (short : s.bindings.length < walkBound) :
    Agrees (handleDHCPDeclineLinks c turn) (handleDHCPDecline s turn.turn) := by
  obtain ⟨xs, lists, values⟩ := stores.bindings
  have searches := searchBindingLinks_cases lists values (Nat.le_of_lt short) turn.turn.ident .dynamic .associated
  unfold handleDHCPDeclineLinks handleDHCPDecline
  rcases searches with ⟨linked, searched⟩ | ⟨front, p, v, back, b, rfl, linked, searched, address, removed, -⟩
  · rw [linked, searched]
    exact .returned stores _
  · rw [linked, searched]
    simp only [Option.bind_eq_bind, Option.bind_some, address]
    split
    · obtain ⟨h, unlinked, lists'⟩ := lists.remove
      rw [unlinked]
      exact .returned (stores.withBindings lists' removed) _
    · exact .returned stores _

theorem handleDHCPReleaseLinks_agrees (stores : Stores c s) (short : s.bindings.length < walkBound) :
    Agrees (handleDHCPReleaseLinks c turn) (handleDHCPRelease s turn.turn) := by
  obtain ⟨xs, lists, values⟩ := stores.bindings
  have searches := searchBindingLinks_cases lists values (Nat.le_of_lt short) turn.turn.ident .staticOrDynamic
    .associated
  unfold handleDHCPReleaseLinks handleDHCPRelease
  rcases searches with ⟨linked, searched⟩ | ⟨front, p, v, back, b, rfl, linked, searched, address, -, updated⟩
  · rw [linked, searched]
    exact .returned stores _
  · rw [linked, searched]
    simp only [Option.bind_eq_bind, Option.bind_some, address]
    split
    · obtain ⟨h, written, lists'⟩ := lists.edit IpBinding.release
      rw [written]
      exact .returned (stores.withBindings lists' (updated _)) _
    · exact .returned stores _

theorem handleDHCPInformReplyLinks_agrees (stores : Stores c s) :
    Agrees (some (handleDHCPInformReplyLinks c turn)) (handleDHCPInformReply s turn.turn) := by
  rw [handleDHCPInformReplyLinks, handleDHCPInformReply, stores.config]
  split
  · exact .returned stores _
  · exact .exited

theorem sendDHCPNACKLinks_agrees (stores : Stores c s) :
    Agrees (some (sendDHCPNACKLinks c turn)) (sendDHCPNACK s turn.turn) := by
  rw [sendDHCPNACKLinks, sendDHCPNACK]
  split
  · exact .returned stores _
  · exact .exited

/-- **The handlers compute on nodes what they compute on the list.** -/
theorem handleClientLinks_agrees (stores : Stores c s) (short : s.bindings.length < walkBound)
    (free : Allocates c turn) : Agrees (handleClientLinks c turn) (handleClient s turn.turn) := by
  unfold handleClientLinks handleClient
  cases dispatch turn.turn.task with
  | ignore => exact .returned stores _
  | offer => exact sendDHCPOfferLinks_agrees stores short free
  | ack => exact sendDHCPAckLinks_agrees stores short
  | decline => exact handleDHCPDeclineLinks_agrees stores short
  | release => exact handleDHCPReleaseLinks_agrees stores short
  | inform => exact handleDHCPInformReplyLinks_agrees stores
  | nack => exact sendDHCPNACKLinks_agrees stores

end Handlers

/-! ## Run by run -/

theorem Stores.fresh (pool : IpPoolInd) (config : DhcpConfig) :
    Stores (LinkedServer.fresh pool config) (Server.fresh pool config) where
  pool := rfl
  config := rfl
  bindings := ⟨[], .empty, rfl⟩

/-- Distinct addresses are few. -/
theorem Allocated.short {pool : IpPoolInd} {s : Server} (alloc : Allocated pool s) :
    s.bindings.length < walkBound := by
  have distinct : ((s.bindings.map IpBinding.address).map BitVec.toNat).Nodup :=
    alloc.distinct.map fun _ _ => BitVec.eq_of_toNat_eq
  have within : (s.bindings.map IpBinding.address).map BitVec.toNat ⊆ List.range (2 ^ 32) := by
    intro n member
    obtain ⟨a, -, rfl⟩ := List.mem_map.mp member
    exact List.mem_range.mpr a.isLt
  have few := (distinct.subperm within).length_le
  rw [List.length_map, List.length_map, List.length_range] at few
  exact Nat.lt_succ_of_le few

/-- A turn on linked bindings, as the list server's. -/
def unlinked (e : LinkedTurn × Action) : Option (Turn × Action) := some (e.1.turn, e.2)

theorem linked_simulation (pool : IpPoolInd) : Simulation serve serveLinks unlinked
    (fun s c => Allocated pool s ∧ Stores c s) Allocates where
  follows := by
    rintro s c turn c' action ⟨alloc, stores⟩ free stepped
    have agrees := handleClientLinks_agrees stores alloc.short free
    unfold serveLinks at stepped
    generalize handleClientLinks c turn = linked at agrees stepped
    generalize handled : handleClient s turn.turn = outcome at agrees
    cases agrees with
    | @returned _ t stores' action' =>
      cases stepped
      have served := serve_of_returned handled
      exact ⟨t, served, alloc.served (served_of_serve served), stores'⟩
    | exited => cases stepped
    | hung => cases stepped

/-- **The linked bindings are a list.** Whatever messages the worker handles, and whichever free blocks
`malloc` answers with, the handlers on nodes do what the handlers on a list do; no handler looks at a freed
binding; and the nodes there are, are the bindings of the list. -/
theorem linked_server_refines {pool : IpPoolInd} {config : DhcpConfig} {h : List (LinkedTurn × Action)}
    {c : LinkedServer} (run : Run serveLinks (LinkedServer.fresh pool config) h c)
    (allocates : EachStep serveLinks (LinkedServer.fresh pool config) h Allocates) :
    ∃ s, Run serve (Server.fresh pool config) (h.map fun e => (e.1.turn, e.2)) s ∧ Stores c s ∧
      ∀ turn, Allocates c turn → Agrees (handleClientLinks c turn) (handleClient s turn.turn) := by
  obtain ⟨s, run', alloc, stores⟩ := run.simulated (linked_simulation pool)
    ⟨.fresh pool config, .fresh pool config⟩ allocates
  refine ⟨s, ?_, stores, fun turn free => handleClientLinks_agrees stores alloc.short free⟩
  rwa [emitted, show unlinked = some ∘ fun e => (e.1.turn, e.2) from rfl, List.filterMap_eq_map] at run'

/-- One client declines its address, and the block of its binding is used again for another one's. -/
theorem linked_server_refines_reused_block : ∃ (h : List (LinkedTurn × Action)) (c : LinkedServer) (s : Server),
    h.map Prod.fst = [⟨(discover macB).turn, 7⟩, ⟨(declineOf macA 0xC0A80110#32).turn, 0⟩,
      ⟨(discover macA).turn, 7⟩] ∧
    Run serve (Server.fresh lanPool lanConfig) (h.map fun e => (e.1.turn, e.2)) s ∧ Stores c s ∧
    (∀ turn, Allocates c turn → Agrees (handleClientLinks c turn) (handleClient s turn.turn)) ∧
    c.bindings.first = some 7 := by
  obtain ⟨c, h, guarded, inputs, check⟩ := @Run.of_check _ _ _
    (guarded (fun (c : LinkedServer) (turn : LinkedTurn) => (c.bindings.nodes turn.block).isNone) serveLinks)
    (LinkedServer.fresh lanPool lanConfig)
    [⟨(discover macA).turn, 7⟩, ⟨(declineOf macA 0xC0A80110#32).turn, 0⟩, ⟨(discover macB).turn, 7⟩]
    (fun c _ => c.bindings.first == some 7) (by decide)
  obtain ⟨run, each⟩ := guarded.of_guarded
  obtain ⟨s, run', stores, agrees⟩ := linked_server_refines run
    (each.imp fun _ _ passes _ => Option.isNone_iff_eq_none.mp passes)
  exact ⟨h, c, s, inputs, run', stores, agrees, eq_of_beq check⟩

end DhcpServer
