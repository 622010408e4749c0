import DhcpServer.Lib.Search
import DhcpServer.Server

/-!
# What one turn can do

`Served s turn t action` lists the ways a turn returns, with the tests that were passed on the
way. Every invariant of the server is proved from it, never by unfolding the handlers.
-/

namespace DhcpServer
set_option autoImplicit false
open Lib

/-! ## From the message to its handler -/

/-- Option 53 of the message, as `handle_client` finds it. -/
def Turn.messageType (turn : Turn) : Byte := getDhcpMessageType turn.request.options DhcpMessage.optionsSize

/-- The messages that reach the `switch`: a received BOOTREQUEST with a transaction id. -/
structure Turn.Addressed (turn : Turn) : Prop where
  received : 0 ≤ turn.task.recvBytes
  op : turn.request.op = bootRequest
  xid : turn.request.xid ≠ 0#32

theorem Turn.Addressed.dispatch {turn : Turn} (addressed : turn.Addressed) :
    dispatch turn.task = switchType turn.messageType := by
  have received : ¬ turn.task.recvBytes < 0 := Int.not_lt.mpr addressed.received
  show (if turn.task.recvBytes < 0 then Handler.ignore
    else if turn.request.op = bootRequest then
      if turn.request.xid ≠ 0#32 then switchType turn.messageType else .ignore
    else .ignore) = _
  rw [if_neg received, if_pos addressed.op, if_pos addressed.xid]

theorem addressed_of_dispatch {turn : Turn} (called : dispatch turn.task ≠ .ignore) : turn.Addressed := by
  unfold DhcpServer.dispatch at called
  split at called
  · exact (called rfl).elim
  · rename_i received
    simp only at called
    split at called
    · rename_i op
      split at called
      · rename_i xid
        exact ⟨Int.not_lt.mp received, op, xid⟩
      · exact (called rfl).elim
    · exact (called rfl).elim

/-- A handler is called for its case label only. -/
theorem dispatch_type {turn : Turn} {handler : Handler} (called : dispatch turn.task = handler)
    (handled : handler ≠ .ignore) : switchType turn.messageType = handler := by
  rw [← (addressed_of_dispatch (called ▸ handled)).dispatch, called]

theorem discover_of_offer : ∀ messageType, switchType messageType = .offer → messageType = DhcpMsgType.discover.code := by
  decide

/-- Label 5, which declines, is `DHCP_ACK`. -/
theorem ack_of_decline : ∀ messageType, switchType messageType = .decline → messageType = DhcpMsgType.ack.code := by
  decide

/-! ## One turn -/

/-- The OFFER for `ip`. -/
def offerReply (s : Server) (turn : Turn) (ip : BitVec 32) : Reply :=
  ⟨offerMessage turn.request ip s.config, broadcastAddr⟩

/-- The ACK for `address`. -/
def ackReply (s : Server) (turn : Turn) (address : BitVec 32) : Reply :=
  ⟨ackMessage turn.request address (ackConfig s.config), broadcastAddr⟩

inductive Served (s : Server) (turn : Turn) : Server → Action → Prop where
  | ignored (called : dispatch turn.task = .ignore) : Served s turn s .ignored
  | full (called : dispatch turn.task = .offer) (spent : s.pool.ipLast ≤ s.pool.ipCurrent) :
      Served s turn s .exhausted
  | missed {pool : IpPoolInd} (called : dispatch turn.task = .offer)
      (room : s.pool.ipCurrent < s.pool.ipLast)
      (offer : offerIpAvailable s.pool s.bindings = some (0#32, pool)) :
      Served s turn { s with pool := pool } .exhausted
  | outOfMemory {ip : BitVec 32} {pool : IpPoolInd} (called : dispatch turn.task = .offer)
      (room : s.pool.ipCurrent < s.pool.ipLast)
      (offer : offerIpAvailable s.pool s.bindings = some (ip, pool)) (nonzero : ip ≠ 0#32)
      (malloc : turn.mallocOk = false) : Served s turn { s with pool := pool } .outOfMemory
  | offered {ip : BitVec 32} {pool : IpPoolInd} (called : dispatch turn.task = .offer)
      (room : s.pool.ipCurrent < s.pool.ipLast)
      (offer : offerIpAvailable s.pool s.bindings = some (ip, pool)) (nonzero : ip ≠ 0#32)
      (malloc : turn.mallocOk = true) :
      Served s turn { s with pool := pool, bindings := newBinding turn s.config ip :: s.bindings }
        (.offered ip (offerReply s turn ip) turn.sendOk)
  | noBinding (called : dispatch turn.task = .ack)
      (search : searchBinding s.bindings turn.ackKey .staticOrDynamic .associated = none) :
      Served s turn s .noBinding
  | acked {b : Fin s.bindings.length} (called : dispatch turn.task = .ack)
      (search : searchBinding s.bindings turn.ackKey .staticOrDynamic .associated = some b)
      (sent : turn.sendOk = true) :
      Served s turn { s with config := ackConfig s.config }
        (.acked (ackReply s turn (s.bindings.get b).address))
  | declined {b : Fin s.bindings.length} (called : dispatch turn.task = .decline)
      (search : searchBinding s.bindings turn.ident .dynamic .associated = some b)
      (named : (s.bindings.get b).address = ntohl turn.request.yiaddr) :
      Served s turn { s with bindings := removeBinding s.bindings b } (.declined (s.bindings.get b).address)
  | released {b : Fin s.bindings.length} (called : dispatch turn.task = .release)
      (search : searchBinding s.bindings turn.ident .staticOrDynamic .associated = some b)
      (named : (s.bindings.get b).address = ntohl turn.request.ciaddr) :
      Served s turn { s with bindings := updateBinding s.bindings b IpBinding.release }
        (.released (s.bindings.get b).address)
  | refused (called : dispatch turn.task = .decline ∨ dispatch turn.task = .release) :
      Served s turn s .refused
  | informed (called : dispatch turn.task = .inform) (sent : turn.sendOk = true) :
      Served s turn s (.informed ⟨informReply turn.request s.config, turn.task.clientAddr⟩)
  | nacked (called : dispatch turn.task = .nack) (sent : turn.sendOk = true) :
      Served s turn s (.nacked ⟨nackMessage turn.request, turn.task.clientAddr⟩)

/-- How `send_DHCP_Offer` returns. -/
inductive Discovered (s : Server) (turn : Turn) : Server → Action → Prop where
  | full (spent : s.pool.ipLast ≤ s.pool.ipCurrent) : Discovered s turn s .exhausted
  | missed {pool : IpPoolInd} (room : s.pool.ipCurrent < s.pool.ipLast)
      (offer : offerIpAvailable s.pool s.bindings = some (0#32, pool)) :
      Discovered s turn { s with pool := pool } .exhausted
  | outOfMemory {ip : BitVec 32} {pool : IpPoolInd} (room : s.pool.ipCurrent < s.pool.ipLast)
      (offer : offerIpAvailable s.pool s.bindings = some (ip, pool)) (nonzero : ip ≠ 0#32)
      (malloc : turn.mallocOk = false) : Discovered s turn { s with pool := pool } .outOfMemory
  | offered {ip : BitVec 32} {pool : IpPoolInd} (room : s.pool.ipCurrent < s.pool.ipLast)
      (offer : offerIpAvailable s.pool s.bindings = some (ip, pool)) (nonzero : ip ≠ 0#32)
      (malloc : turn.mallocOk = true) :
      Discovered s turn { s with pool := pool, bindings := newBinding turn s.config ip :: s.bindings }
        (.offered ip (offerReply s turn ip) turn.sendOk)

section Handlers
variable {s t : Server} {turn : Turn} {action : Action}

theorem sendDHCPOffer_full (spent : s.pool.ipLast ≤ s.pool.ipCurrent) :
    sendDHCPOffer s turn = .returned s .exhausted := by
  rw [sendDHCPOffer, if_pos spent]

theorem sendDHCPOffer_hung (room : s.pool.ipCurrent < s.pool.ipLast)
    (offer : offerIpAvailable s.pool s.bindings = none) : sendDHCPOffer s turn = .hung := by
  rw [sendDHCPOffer, if_neg (BitVec.not_le.mpr room), offer]

theorem sendDHCPOffer_missed (room : s.pool.ipCurrent < s.pool.ipLast) {pool : IpPoolInd}
    (offer : offerIpAvailable s.pool s.bindings = some (0#32, pool)) :
    sendDHCPOffer s turn = .returned { s with pool := pool } .exhausted := by
  rw [sendDHCPOffer, if_neg (BitVec.not_le.mpr room), offer]
  exact if_pos rfl

section Offer
variable {ip : BitVec 32} {pool : IpPoolInd}

theorem sendDHCPOffer_outOfMemory (room : s.pool.ipCurrent < s.pool.ipLast)
    (offer : offerIpAvailable s.pool s.bindings = some (ip, pool)) (nonzero : ip ≠ 0#32)
    (malloc : turn.mallocOk = false) : sendDHCPOffer s turn = .returned { s with pool := pool } .outOfMemory := by
  rw [sendDHCPOffer, if_neg (BitVec.not_le.mpr room), offer]
  simp only [if_neg nonzero, malloc]
  rfl

theorem sendDHCPOffer_offered (room : s.pool.ipCurrent < s.pool.ipLast)
    (offer : offerIpAvailable s.pool s.bindings = some (ip, pool)) (nonzero : ip ≠ 0#32)
    (malloc : turn.mallocOk = true) : sendDHCPOffer s turn =
      .returned { s with pool := pool, bindings := newBinding turn s.config ip :: s.bindings }
        (.offered ip (offerReply s turn ip) turn.sendOk) := by
  rw [sendDHCPOffer, if_neg (BitVec.not_le.mpr room), offer]
  simp only [if_neg nonzero, malloc]
  rfl

end Offer

theorem discovered_of_returned (returned : sendDHCPOffer s turn = .returned t action) :
    Discovered s turn t action := by
  by_cases spent : s.pool.ipLast ≤ s.pool.ipCurrent
  · cases (sendDHCPOffer_full spent).symm.trans returned
    exact .full spent
  · have room := BitVec.not_le.mp spent
    cases offer : offerIpAvailable s.pool s.bindings with
    | none =>
      cases (sendDHCPOffer_hung room offer).symm.trans returned
    | some r =>
      obtain ⟨ip, pool⟩ := r
      by_cases zero : ip = 0#32
      · subst zero
        cases (sendDHCPOffer_missed room offer).symm.trans returned
        exact .missed room offer
      · cases malloc : turn.mallocOk with
        | false =>
          cases (sendDHCPOffer_outOfMemory room offer zero malloc).symm.trans returned
          exact .outOfMemory room offer zero malloc
        | true =>
          cases (sendDHCPOffer_offered room offer zero malloc).symm.trans returned
          exact .offered room offer zero malloc

theorem sendDHCPOffer_served (called : dispatch turn.task = .offer)
    (returned : sendDHCPOffer s turn = .returned t action) : Served s turn t action := by
  cases discovered_of_returned returned with
  | full spent => exact .full called spent
  | missed room offer => exact .missed called room offer
  | outOfMemory room offer nonzero failed => exact .outOfMemory called room offer nonzero failed
  | offered room offer nonzero allocated => exact .offered called room offer nonzero allocated

theorem sendDHCPAck_served (called : dispatch turn.task = .ack)
    (returned : sendDHCPAck s turn = .returned t action) : Served s turn t action := by
  unfold sendDHCPAck at returned
  split at returned
  · rename_i search
    cases returned
    exact .noBinding called search
  · rename_i b search
    simp only at returned
    split at returned
    · rename_i sent
      cases returned
      exact .acked called search sent
    · cases returned

theorem handleDHCPDecline_served (called : dispatch turn.task = .decline)
    (returned : handleDHCPDecline s turn = .returned t action) : Served s turn t action := by
  unfold handleDHCPDecline at returned
  simp only at returned
  split at returned
  · cases returned
    exact .refused (Or.inl called)
  · rename_i b search
    split at returned
    · rename_i named
      cases returned
      rw [← named]
      exact .declined called search named
    · cases returned
      exact .refused (Or.inl called)

theorem handleDHCPRelease_served (called : dispatch turn.task = .release)
    (returned : handleDHCPRelease s turn = .returned t action) : Served s turn t action := by
  unfold handleDHCPRelease at returned
  simp only at returned
  split at returned
  · cases returned
    exact .refused (Or.inr called)
  · rename_i b search
    split at returned
    · rename_i named
      cases returned
      rw [← named]
      exact .released called search named
    · cases returned
      exact .refused (Or.inr called)

theorem returned_of_serve (served : serve s turn = some (t, action)) :
    handleClient s turn = .returned t action := by
  unfold serve at served
  split at served
  · rename_i same
    cases served
    exact same
  · cases served
  · cases served

theorem serve_of_returned (returned : handleClient s turn = .returned t action) :
    serve s turn = some (t, action) := by
  rw [serve, returned]

/-- **Inversion of a turn.** -/
theorem served_of_serve (served : serve s turn = some (t, action)) : Served s turn t action := by
  have returned := returned_of_serve served
  unfold handleClient at returned
  split at returned
  · rename_i called
    cases returned
    exact .ignored called
  · rename_i called
    exact sendDHCPOffer_served called returned
  · rename_i called
    exact sendDHCPAck_served called returned
  · rename_i called
    exact handleDHCPDecline_served called returned
  · rename_i called
    exact handleDHCPRelease_served called returned
  · rename_i called
    unfold handleDHCPInformReply at returned
    split at returned
    · rename_i sent
      cases returned
      exact .informed called sent
    · cases returned
  · rename_i called
    unfold sendDHCPNACK at returned
    split at returned
    · rename_i sent
      cases returned
      exact .nacked called sent
    · cases returned

end Handlers

/-! ## The bindings around a found one -/

section Found
variable {list : BindingList} {ident : ClientIdent} {wanted : Assignment} {status : BindingStatus}

/-- A search splits the list around the binding it finds; removing and releasing act there. -/
theorem searchBinding_split {b : Fin list.length}
    (search : searchBinding list ident wanted status = some b) :
    ∃ front back, list = front ++ list.get b :: back ∧ (list.get b).matches ident wanted status = true ∧
      (∀ x ∈ front, x.matches ident wanted status = false) ∧
      removeBinding list b = front ++ back ∧
      ∀ f, updateBinding list b f = front ++ f (list.get b) :: back := by
  obtain ⟨front, back, split, index, holds, before⟩ := findFin_split search
  refine ⟨front, back, split, holds, before, ?_, fun f => ?_⟩
  · have removed := eraseIdx_split front (list.get b) back
    rwa [index, ← split] at removed
  · have updated := modify_split front (list.get b) back f
    rwa [index, ← split] at updated

/-- An update that keeps a part of every binding keeps that part of the list. -/
theorem map_updateBinding {κ : Type} (list : BindingList) (b : Fin list.length) {f : IpBinding → IpBinding}
    {part : IpBinding → κ} (same : ∀ b, part (f b) = part b) :
    (updateBinding list b f).map part = list.map part := by
  apply List.ext_getElem?
  intro i
  rw [updateBinding, List.getElem?_map, List.getElem?_map, List.getElem?_modify]
  cases list[i]? with
  | none => rfl
  | some c =>
    by_cases here : b.val = i <;> simp [here, same c]

end Found

end DhcpServer
