import DhcpServer.ConfigKept
import DhcpServer.Lib.Observation
import DhcpServer.ServerLog

/-!
# What the traffic tells of the configuration

A client sees the datagrams the server sends. Two configurations that no sequence of messages can tell
apart agree in the first DNS server, which an INFORM is answered with; and, if the range has an address to
offer, in the range, the lease time and the router. The rest never shows: the subnet, the netmask, the
default lease time and the second DNS server.
-/

namespace DhcpServer
set_option autoImplicit false
open Lib

/-- What goes out. -/
def Reply.wire (reply : Reply) : List Byte × SockAddrIn := (reply.datagram, reply.dest)

/-- What a turn sends. -/
def Action.wire : Action → Option (List Byte × SockAddrIn)
  | .offered _ reply true => some reply.wire
  | .acked reply => some reply.wire
  | .informed reply => some reply.wire
  | .nacked reply => some reply.wire
  | _ => none

/-- The fields of the configuration that the replies are made of. -/
structure SameReplies (config config' : DhcpConfig) : Prop where
  dns : config.dns.get 0 = config'.dns.get 0
  maxLeaseTime : config.maxLeaseTime = config'.maxLeaseTime
  router : config.router = config'.router

/-- Servers that answer alike: with the same to offer, or with nothing to offer and no bindings. -/
inductive Twins : Server → Server → Prop where
  | alike {pool : IpPoolInd} {bindings : BindingList} {config config' : DhcpConfig}
      (same : SameReplies config config') : Twins ⟨pool, bindings, config⟩ ⟨pool, bindings, config'⟩
  | spent {pool pool' : IpPoolInd} {config config' : DhcpConfig} (spent : pool.ipLast ≤ pool.ipCurrent)
      (spent' : pool'.ipLast ≤ pool'.ipCurrent) (dns : config.dns.get 0 = config'.dns.get 0) :
      Twins ⟨pool, [], config⟩ ⟨pool', [], config'⟩

/-- Outcomes that send the same and leave twins. -/
inductive TwinOutcomes : Outcome → Outcome → Prop where
  | returned {t t' : Server} {action action' : Action} (wire : action.wire = action'.wire) (twins : Twins t t') :
      TwinOutcomes (.returned t action) (.returned t' action')
  | exited : TwinOutcomes .exited .exited
  | hung : TwinOutcomes .hung .hung

section Twins
variable {s s' : Server} {turn : Turn} {config config' : DhcpConfig} {request : DhcpMessage}

theorem Twins.dns (twins : Twins s s') : s.config.dns.get 0 = s'.config.dns.get 0 := by
  cases twins with
  | alike same => exact same.dns
  | spent _ _ dns => exact dns

theorem offerMessage_same (same : SameReplies config config') (ip : BitVec 32) :
    offerMessage request ip config = offerMessage request ip config' := by
  rw [offerMessage, offerMessage, offerOptions, offerOptions, same.maxLeaseTime, same.router]

theorem ackMessage_same (same : SameReplies config config') (address : BitVec 32) :
    ackMessage request address (ackConfig config) = ackMessage request address (ackConfig config') := by
  rw [ackMessage, ackMessage, ackOptions_eq, ackOptions_eq, ackList_ackConfig, ackList_ackConfig, same.maxLeaseTime,
    same.router]

theorem informReply_same (dns : config.dns.get 0 = config'.dns.get 0) :
    informReply request config = informReply request config' := by
  have first : config.dns[0] = config'.dns[0] := dns
  rw [informReply, informReply, informOptions, informOptions, first]

/-- After an ACK the DNS server is the one built in. -/
theorem SameReplies.ackConfig (same : SameReplies config config') :
    SameReplies (ackConfig config) (ackConfig config') where
  dns := by
    show (config.dns.set 0 _)[0] = (config'.dns.set 0 _)[0]
    rw [Vector.getElem_set_self, Vector.getElem_set_self]
  maxLeaseTime := same.maxLeaseTime
  router := same.router

theorem sendDHCPOffer_twins (twins : Twins s s') : TwinOutcomes (sendDHCPOffer s turn) (sendDHCPOffer s' turn) := by
  cases twins with
  | spent spent spent' dns =>
    rw [sendDHCPOffer_full spent, sendDHCPOffer_full spent']
    exact .returned rfl (.spent spent spent' dns)
  | @alike pool bindings config config' same =>
    unfold sendDHCPOffer
    split
    · exact .returned rfl (.alike same)
    cases offerIpAvailable pool bindings with
    | none => exact .hung
    | some r =>
      obtain ⟨ip, pool'⟩ := r
      simp only
      split
      · exact .returned rfl (.alike same)
      split
      · exact .returned rfl (.alike same)
      · rw [newBinding, newBinding, same.maxLeaseTime, offerMessage_same same]
        exact .returned rfl (.alike same)

theorem sendDHCPAck_twins (twins : Twins s s') : TwinOutcomes (sendDHCPAck s turn) (sendDHCPAck s' turn) := by
  cases twins with
  | spent spent spent' dns => exact .returned rfl (.spent spent spent' dns)
  | @alike pool bindings config config' same =>
    unfold sendDHCPAck
    simp only
    split
    · exact .returned rfl (.alike same)
    split
    · rw [ackMessage_same same]
      exact .returned rfl (.alike same.ackConfig)
    · exact .exited

theorem handleDHCPDecline_twins (twins : Twins s s') :
    TwinOutcomes (handleDHCPDecline s turn) (handleDHCPDecline s' turn) := by
  cases twins with
  | spent spent spent' dns => exact .returned rfl (.spent spent spent' dns)
  | alike same =>
    unfold handleDHCPDecline
    simp only
    split
    · exact .returned rfl (.alike same)
    split
    · exact .returned rfl (.alike same)
    · exact .returned rfl (.alike same)

theorem handleDHCPRelease_twins (twins : Twins s s') :
    TwinOutcomes (handleDHCPRelease s turn) (handleDHCPRelease s' turn) := by
  cases twins with
  | spent spent spent' dns => exact .returned rfl (.spent spent spent' dns)
  | alike same =>
    unfold handleDHCPRelease
    simp only
    split
    · exact .returned rfl (.alike same)
    split
    · exact .returned rfl (.alike same)
    · exact .returned rfl (.alike same)

theorem handleDHCPInformReply_twins (twins : Twins s s') :
    TwinOutcomes (handleDHCPInformReply s turn) (handleDHCPInformReply s' turn) := by
  unfold handleDHCPInformReply
  split
  · rw [informReply_same twins.dns]
    exact .returned rfl twins
  · exact .exited

theorem sendDHCPNACK_twins (twins : Twins s s') : TwinOutcomes (sendDHCPNACK s turn) (sendDHCPNACK s' turn) := by
  unfold sendDHCPNACK
  split
  · exact .returned rfl twins
  · exact .exited

/-- **Twins answer every message alike.** -/
theorem handleClient_twins (twins : Twins s s') : TwinOutcomes (handleClient s turn) (handleClient s' turn) := by
  unfold handleClient
  split
  · exact .returned rfl twins
  · exact sendDHCPOffer_twins twins
  · exact sendDHCPAck_twins twins
  · exact handleDHCPDecline_twins twins
  · exact handleDHCPRelease_twins twins
  · exact handleDHCPInformReply_twins twins
  · exact sendDHCPNACK_twins twins

theorem twins_bisimulation : Bisimulation serve Action.wire Twins := by
  intro s s' turn twins
  have outcomes := @handleClient_twins s s' turn twins
  unfold serve
  generalize handleClient s turn = outcome at outcomes
  generalize handleClient s' turn = outcome' at outcomes
  cases outcomes with
  | returned wire twins => exact .some ⟨wire, twins⟩
  | exited => exact .none
  | hung => exact .none

end Twins

/-! ## What a message brings out -/

/-- An INFORM and a DISCOVER of one client, while the C library's calls succeed. -/
def informing : Turn := (ethernet macA 8#8 []).turn

def discovering : Turn := (discover macA).turn

section Told
variable {s t : Server} {turn : Turn} {action : Action} {pool pool' : IpPoolInd} {config config' : DhcpConfig}
  {request m m' : DhcpMessage} {h : History}

theorem isDiscover_discovering : IsDiscover discovering := isDiscover_discover macA

theorem clear_ethernet (mac : List Byte) (messageType : Byte) :
    ClearOfOptions (ethernet mac messageType []).task.request := by
  apply clearOfOptions_of_within
  rw [ClientMessage.hlen_task]
  exact (by decide : 6 ≤ DhcpMessage.chaddrSize)

theorem serve_informing (s : Server) : serve s informing =
    some (s, .informed ⟨informReply informing.request s.config, informing.task.clientAddr⟩) := by
  have called : dispatch informing.task = .inform := dispatch_ethernet macA 8#8 []
  rw [serve, handleClient, called]
  rfl

theorem datagram_of_wire {reply reply' : Reply} (seen : reply.wire = reply'.wire) :
    reply.message.slice 0 DhcpMessage.size = reply'.message.slice 0 DhcpMessage.size :=
  (Prod.mk.inj seen).1

/-- Equal datagrams have equal words. -/
theorem load32_of_datagram (same : m.slice 0 DhcpMessage.size = m'.slice 0 DhcpMessage.size) {a : Nat}
    (inside : a + 4 ≤ DhcpMessage.size) : m.load32 a = m'.load32 a :=
  Memory.load32_congr (Memory.slice_within same (Nat.zero_le a) (by rwa [Nat.zero_add]))

/-- Equal datagrams have equal options. -/
theorem options_of_datagram (same : m.slice 0 DhcpMessage.size = m'.slice 0 DhcpMessage.size) {n : Nat}
    (inside : n ≤ DhcpMessage.optionsSize) : m.options.slice 0 n = m'.options.slice 0 n := by
  rw [DhcpMessage.options, DhcpMessage.options, Memory.shift_slice, Memory.shift_slice]
  refine Memory.slice_within same (Nat.zero_le _) ?_
  simp only [DhcpMessage.optionsSize, DhcpMessage.optionsOffset, DhcpMessage.size] at inside ⊢
  omega

theorem inform_written (clear : ClearOfOptions request) :
    (informReply request config).options.slice 0 26 = informOptions config := by
  have length : (informOptions config).length = 26 := rfl
  rw [← length]
  exact buildReply_written noFlags clear

theorem offer_written {ip : BitVec 32} (clear : ClearOfOptions request) :
    (offerMessage request ip config).options.slice 0 14 = offerOptions config := by
  have length : (offerOptions config).length = 14 := rfl
  rw [← length]
  exact buildReply_written (flags_short request) clear

/-- An INFORM brings out the first DNS server. -/
theorem dns_told
    (same : Indistinguishable serve Action.wire (Server.fresh pool config) (Server.fresh pool' config')) :
    config.dns.get 0 = config'.dns.get 0 := by
  obtain ⟨t', action', stepped', seen⟩ := same.next (serve_informing _)
  rw [serve_informing] at stepped'
  cases stepped'
  have datagram := datagram_of_wire (Option.some.inj seen)
  have options := options_of_datagram datagram (by decide : 26 ≤ DhcpMessage.optionsSize)
  have clear : ClearOfOptions informing.request := clear_ethernet macA 8#8
  rw [inform_written clear, inform_written clear, informOptions, informOptions, wordOctets_eq, wordOctets_eq] at options
  have octets := (List.append_inj (List.append_inj options rfl).1 rfl).1
  exact (be32_injective (List.append_cancel_left octets)).symm

/-- A DISCOVER that is answered was answered with an OFFER of the next address. -/
theorem offered_of_wire (alloc : Allocated pool s) (discover : IsDiscover turn)
    (stepped : serve s turn = some (t, action)) {sent : List Byte × SockAddrIn} (seen : action.wire = some sent) :
    s.pool.ipCurrent < s.pool.ipLast ∧ sent = (offerReply s turn s.pool.nextAddress).wire := by
  cases served_of_serve stepped with
  | offered _ room offer nonzero =>
    obtain ⟨-, rfl, -⟩ := offer_eq_next alloc.bounds room offer nonzero
    rw [discover.sendOk] at seen
    exact ⟨room, (Option.some.inj seen).symm⟩
  | acked called => rw [discover.called] at called; cases called
  | informed called => rw [discover.called] at called; cases called
  | nacked called => rw [discover.called] at called; cases called
  | _ => cases seen

/-- An OFFER brings out its address, the lease time and the router. -/
theorem offer_told {ip ip' : BitVec 32} (clear : ClearOfOptions request)
    (same : (offerMessage request ip config).slice 0 DhcpMessage.size =
      (offerMessage request ip' config').slice 0 DhcpMessage.size) :
    ip = ip' ∧ config.maxLeaseTime = config'.maxLeaseTime ∧ config.router = config'.router := by
  refine ⟨?_, ?_, ?_⟩
  · have word := load32_of_datagram same (by decide : 16 + 4 ≤ DhcpMessage.size)
    have address : ntohl (offerMessage request ip config).yiaddr = ntohl (offerMessage request ip' config').yiaddr :=
      congrArg ntohl word
    rwa [offerMessage_yiaddr, offerMessage_yiaddr] at address
  · have options := options_of_datagram same (by decide : 14 ≤ DhcpMessage.optionsSize)
    rw [offer_written clear, offer_written clear, offerOptions, offerOptions, intOctets_eq, intOctets_eq] at options
    have octets := (List.append_inj options rfl).1
    exact be32_injective (List.append_cancel_left octets)
  · have word : (offerMessage request ip config).siaddr = (offerMessage request ip' config').siaddr :=
      load32_of_datagram same (by decide : 20 + 4 ≤ DhcpMessage.size)
    rw [offerMessage, offerMessage, buildReply_siaddr, buildReply_siaddr] at word
    exact htonl_injective word

end Told

/-! ## What all messages bring out -/

section Range
variable {first last first' last' : BitVec 32} {config config' : DhcpConfig} {h : History} {s : Server}

theorem nextAddress_ofRange (room : first < last) :
    (IpPoolInd.ofRange first last).nextAddress.toNat = first.toNat + 1 := by
  have counted : Counted first last [] (Server.fresh (.ofRange first last) lanConfig) := .of_run .start
  exact (counted.takes (.fresh _ _) room).1

/-- The first OFFER brings out where the range starts, and that it has room. -/
theorem offers_told (same : Indistinguishable serve Action.wire (Server.fresh (.ofRange first last) config)
      (Server.fresh (.ofRange first' last') config')) (room : first < last) :
    first' < last' ∧ first = first' ∧ config.maxLeaseTime = config'.maxLeaseTime ∧ config.router = config'.router := by
  have alloc := Allocated.fresh (.ofRange first last) config
  have stepped := serve_discover alloc.bounds room (BitVec.le_of_lt room) isDiscover_discovering
  obtain ⟨t', action', stepped', seen⟩ := same.next stepped
  obtain ⟨room', sent⟩ := offered_of_wire (.fresh _ _) isDiscover_discovering stepped' seen
  have datagram := datagram_of_wire sent
  have clear : ClearOfOptions discovering.request := clear_ethernet macA 1#8
  obtain ⟨address, maxLeaseTime, router⟩ := offer_told clear datagram
  refine ⟨room', ?_, maxLeaseTime, router⟩
  have next := nextAddress_ofRange room
  have next' : (IpPoolInd.ofRange first' last').nextAddress.toNat = first'.toNat + 1 := nextAddress_ofRange room'
  apply BitVec.eq_of_toNat_eq
  have numbers : (IpPoolInd.ofRange first last).nextAddress.toNat =
      (IpPoolInd.ofRange first' last').nextAddress.toNat := congrArg BitVec.toNat address
  omega

/-- Of a run of DISCOVERs the traffic tells how many addresses were taken. -/
theorem taken_seen (run : Run serve (Server.fresh (.ofRange first last) config) h s)
    (discovers : ∀ e ∈ h, IsDiscover e.1) :
    addressesTaken h = (observed Action.wire h).countP fun e => e.2.isSome := by
  induction run with
  | start => rfl
  | @snoc h s t turn action _ stepped ih =>
    obtain ⟨discover, earlier⟩ := List.forall_mem_cons.mp discovers
    have told : action.takes = action.wire.isSome := by
      cases served_of_serve stepped with
      | outOfMemory _ _ _ _ failed => rw [discover.mallocOk] at failed; cases failed
      | offered => rw [discover.sendOk]; rfl
      | acked called => rw [discover.called] at called; cases called
      | informed called => rw [discover.called] at called; cases called
      | nacked called => rw [discover.called] at called; cases called
      | _ => rfl
    rw [addressesTaken_cons, ih earlier, observed_cons, List.countP_cons, told]

/-- As many OFFERs as the range has room for bring out where it ends. -/
theorem last_told (same : Indistinguishable serve Action.wire (Server.fresh (.ofRange first last) config)
    (Server.fresh (.ofRange first last') config')) : last'.toNat - first.toNat ≤ last.toNat - first.toNat := by
  by_cases room : first < last'
  · have discovers : ∀ turn ∈ List.replicate (last'.toNat - first.toNat) discovering, IsDiscover turn := by
      intro turn member
      rw [List.eq_of_mem_replicate member]
      exact isDiscover_discovering
    have span := BitVec.lt_def.mp room
    obtain ⟨h', s', run', inputs', -, cursor⟩ := @run_discovers config' first last' _ discovers (by
      rw [List.length_replicate]
      omega)
    obtain ⟨h, s, run, seen⟩ := same.symm.run run'
    have inputs : h.map Prod.fst = List.replicate (last'.toNat - first.toNat) discovering := by
      rw [← observed_inputs, seen, observed_inputs, inputs']
    have each : ∀ g : History, g.map Prod.fst = List.replicate (last'.toNat - first.toNat) discovering →
        ∀ e ∈ g, IsDiscover e.1 := by
      intro g same e member
      exact discovers _ (same ▸ List.mem_map_of_mem member)
    have taken := taken_seen run (each h inputs)
    have taken' := taken_seen run' (each h' inputs')
    have counted := Counted.of_run run'
    have below := last'.isLt
    have reached := counted.cursor
    rw [cursor, List.length_replicate, toNat_add_ofNat (by omega)] at reached
    have within := (Counted.of_run run).within
    rw [taken, seen, ← taken'] at within
    omega
  · have empty := BitVec.le_def.mp (BitVec.not_lt.mp room)
    omega

end Range

/-- **What the traffic tells of the configuration**: the first DNS server; whether the range has an address
past its first; and if it has, the range, the lease time and the router. -/
theorem traffic_tells_iff (first last first' last' : BitVec 32) (config config' : DhcpConfig) :
    Indistinguishable serve Action.wire (Server.fresh (.ofRange first last) config)
        (Server.fresh (.ofRange first' last') config') ↔
      config.dns.get 0 = config'.dns.get 0 ∧
        (last ≤ first ∧ last' ≤ first' ∨
          first < last ∧ first = first' ∧ last = last' ∧ config.maxLeaseTime = config'.maxLeaseTime ∧
            config.router = config'.router) := by
  constructor
  · intro same
    refine ⟨dns_told same, ?_⟩
    by_cases room : first < last
    · obtain ⟨room', rfl, maxLeaseTime, router⟩ := offers_told same room
      have ends : last = last' := by
        have up := last_told same
        have down := last_told same.symm
        rw [BitVec.lt_def] at room room'
        apply BitVec.eq_of_toNat_eq
        omega
      exact Or.inr ⟨room, rfl, ends, maxLeaseTime, router⟩
    · have none : last' ≤ first' := BitVec.not_lt.mp fun room' => room (offers_told same.symm room').1
      exact Or.inl ⟨BitVec.not_lt.mp room, none⟩
  · rintro ⟨dns, ⟨spent, spent'⟩ | ⟨-, rfl, rfl, maxLeaseTime, router⟩⟩
    · exact twins_bisimulation.indistinguishable (.spent spent spent' dns)
    · exact twins_bisimulation.indistinguishable (.alike ⟨dns, maxLeaseTime, router⟩)

end DhcpServer
