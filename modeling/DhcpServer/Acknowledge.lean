import DhcpServer.Leases

/-!
# Which address an ACK carries

`send_DHCP_Ack` answers with the newest lease of the client whose identifier is the first six
bytes at `chaddr`. For an Ethernet client that is the client itself, and then offers and
acknowledgements agree. For every other length it is somebody else.
-/

namespace DhcpServer
set_option autoImplicit false
open Lib

section Acknowledge
variable {pool : IpPoolInd} {config : DhcpConfig} {h : History} {s t : Server} {turn : Turn} {reply : Reply}

theorem ackKey_eq_ident (ethernet : turn.request.hlen = 6#8) : turn.ackKey = turn.ident := by
  rw [Turn.ackKey, Turn.ident, DhcpMessage.ident, ethernet]

theorem hlen_of_ackKey (same : turn.ackKey = turn.ident) : turn.request.hlen = 6#8 := by
  have length := congrArg (fun ident : ClientIdent => ident.bytes.length) same
  simp only [Turn.ackKey, Turn.ident, DhcpMessage.ident, identAt_length] at length
  exact BitVec.eq_of_toNat_eq length.symm

/-- The address `send_DHCP_Ack` looks up. -/
def lookupAddress (bindings : BindingList) (c : ClientIdent) : Option (BitVec 32) :=
  (searchBinding bindings c .staticOrDynamic .associated).map fun b => (bindings.get b).address

/-- A REQUEST whose look-up succeeds is acknowledged. -/
theorem serve_ack {a : BitVec 32} (found : lookupAddress s.bindings turn.ackKey = some a)
    (called : dispatch turn.task = .ack) (sent : turn.sendOk = true) :
    serve s turn = some ({ s with config := ackConfig s.config }, .acked (ackReply s turn a)) := by
  obtain ⟨b, search, rfl⟩ := Option.map_eq_some_iff.mp found
  simp only [serve, handleClient, called, sendDHCPAck, search, sent, if_true]
  rfl

/-- **The look-up finds the most recent live OFFER** of the history. -/
theorem mostRecent_iff_lookup (run : Run serve (Server.fresh pool config) h s) {c : ClientIdent}
    {a : BitVec 32} : Ledger.MostRecent c a (book h) ↔ lookupAddress s.bindings c = some a := by
  obtain ⟨alloc, inv⟩ := Reflects.of_run run
  have accepts : Assignment.staticOrDynamic ≠ .static := by decide
  rw [← Ledger.head_outstanding_iff, ← inv.leases,
    head_leases alloc.dynamic accepts, lookupAddress]

/-- An ACK carries the address the look-up finds. -/
theorem lookup_of_acked (answered : serve s turn = some (t, .acked reply)) :
    lookupAddress s.bindings turn.ackKey = some (ntohl reply.message.yiaddr) := by
  cases served_of_serve answered with
  | acked _ search => rw [lookupAddress, search, Option.map_some, ackReply, ackMessage_yiaddr]

/-- **An ACK carries the most recent live OFFER of its key.** -/
theorem mostRecent_of_acked (run : Run serve (Server.fresh pool config) h s)
    (answered : serve s turn = some (t, .acked reply)) :
    Ledger.MostRecent turn.ackKey (ntohl reply.message.yiaddr) (book h) :=
  (mostRecent_iff_lookup run).mpr (lookup_of_acked answered)

/-- A grant in the book is an OFFER of the history. -/
theorem offered_of_grant {c : ClientIdent} {a : BitVec 32} (entry : .grant c a ∈ book h) :
    ∃ earlier ip offer sent, (earlier, Action.offered ip offer sent) ∈ h ∧ earlier.ident = c ∧
      ntohl offer.message.yiaddr = a := by
  obtain ⟨⟨earlier, action⟩, member, entry⟩ := List.mem_filterMap.mp entry
  cases action <;> simp only [Action.entry, reduceCtorEq, Option.some.injEq, Ledger.Entry.grant.injEq] at entry
  obtain ⟨rfl, rfl⟩ := entry
  exact ⟨earlier, _, _, _, member, rfl, rfl⟩

/-! ## Offers and acknowledgements of one client -/

/-- **Offer and acknowledgement agree for Ethernet clients.** Whatever other clients sent in
between, an ACK carries the client's most recent OFFER that it has neither released nor declined;
without one there is no ACK; and with one every REQUEST is acknowledged. -/
theorem ack_agreement (run : Run serve (Server.fresh pool config) h s)
    (ethernet : turn.request.hlen = 6#8) :
    (∀ t reply, serve s turn = some (t, .acked reply) →
      Ledger.MostRecent turn.ident (ntohl reply.message.yiaddr) (book h)) ∧
    ((∀ a, ¬ Ledger.MostRecent turn.ident a (book h)) →
      ∀ t reply, serve s turn ≠ some (t, .acked reply)) ∧
    ∀ a, Ledger.MostRecent turn.ident a (book h) → dispatch turn.task = .ack → turn.sendOk = true →
      ∃ t reply, serve s turn = some (t, .acked reply) ∧ ntohl reply.message.yiaddr = a := by
  rw [← ackKey_eq_ident ethernet]
  refine ⟨fun t reply => mostRecent_of_acked run, ?_, ?_⟩
  · intro none t reply answered
    exact none _ (mostRecent_of_acked run answered)
  · intro a recent called sent
    exact ⟨_, _, serve_ack ((mostRecent_iff_lookup run).mp recent) called sent, ackMessage_yiaddr _ _ _⟩

/-- A client with two OFFERs has declined the second and is acknowledged the first. -/
theorem ack_agreement_after_decline : ∃ h s, Run serve (Server.fresh lanPool lanConfig) h s ∧
    (requestFor macA 0xC0A80110#32).turn.request.hlen = 6#8 ∧
    ∃ t reply, serve s (requestFor macA 0xC0A80110#32).turn = some (t, .acked reply) ∧
      ntohl reply.message.yiaddr = 0xC0A80110#32 := by
  obtain ⟨s, h, run, -, check⟩ := @Run.of_check _ _ _ serve (Server.fresh lanPool lanConfig)
    [(discover macA).turn, (discover macA).turn, (discover macB).turn, (declineOf macA 0xC0A80111#32).turn]
    (fun s _ => lookupAddress s.bindings (requestFor macA 0xC0A80110#32).turn.ident == some 0xC0A80110#32)
    (by decide)
  have ethernet : (requestFor macA 0xC0A80110#32).turn.request.hlen = 6#8 := ClientMessage.hlen_task _
  obtain ⟨-, -, acknowledged⟩ := ack_agreement run ethernet
  have recent := (mostRecent_iff_lookup run).mpr (eq_of_beq check)
  exact ⟨h, s, run, ethernet, acknowledged _ recent (dispatch_requestFor _ _) rfl⟩

/-! ## Whose address it is -/

/-- The ACK carries the address of an `ASSOCIATED` binding of the very client that sent the
REQUEST, and an earlier OFFER of that address went to this client. -/
def AckToOwner (h : History) (s : Server) (turn : Turn) (reply : Reply) : Prop :=
  ∃ b ∈ s.bindings, b.status = .associated ∧ b.address = ntohl reply.message.yiaddr ∧
    b.cident = turn.ident ∧ ∃ earlier ip offer sent, (earlier, .offered ip offer sent) ∈ h ∧
      earlier.ident = turn.ident ∧ ntohl offer.message.yiaddr = b.address

/-- The key of an ACK is the owner of its address. -/
theorem acked_lease (run : Run serve (Server.fresh pool config) h s)
    (answered : serve s turn = some (t, .acked reply)) :
    ∃ b ∈ s.bindings, b.address = ntohl reply.message.yiaddr ∧ b.leasedTo turn.ackKey = true := by
  obtain ⟨alloc, -⟩ := Reflects.of_run run
  obtain ⟨b, search, carried⟩ := Option.map_eq_some_iff.mp (lookup_of_acked answered)
  obtain ⟨-, -, -, lease, -⟩ := searchBinding_lease alloc.dynamic (by decide) search
  exact ⟨_, List.get_mem _ _, carried, lease⟩

/-- An address has one owner. -/
theorem Allocated.owner_unique (alloc : Allocated pool s) {b c : IpBinding} (listed : b ∈ s.bindings)
    (listed' : c ∈ s.bindings) (same : b.address = c.address) : b = c :=
  List.inj_on_of_nodup_map alloc.distinct listed listed' same

/-- The OFFER behind an ACK of the history. -/
theorem grant_of_acked (run : Run serve (Server.fresh pool config) h s) (entry : (turn, .acked reply) ∈ h) :
    .grant turn.ackKey (ntohl reply.message.yiaddr) ∈ book h := by
  obtain ⟨newer, older, rfl⟩ := List.append_of_mem entry
  obtain ⟨s', t, before, answered, -⟩ := run.step_at
  have granted := (mostRecent_of_acked before answered).grant_mem
  rw [book_append, book_cons]
  exact List.mem_append_right _ (List.mem_append_right _ granted)

/-- **An ACK goes to the owner of the address exactly when the client is an Ethernet client.** So
no address is acknowledged to two Ethernet clients. -/
theorem ack_to_owner_iff (run : Run serve (Server.fresh pool config) h s) :
    (∀ turn t reply, serve s turn = some (t, .acked reply) →
      (AckToOwner h s turn reply ↔ turn.request.hlen = 6#8)) ∧
    ∀ turn turn' reply reply', (turn, .acked reply) ∈ h → (turn', .acked reply') ∈ h →
      turn.request.hlen = 6#8 → turn'.request.hlen = 6#8 →
      reply.message.yiaddr = reply'.message.yiaddr → turn.ident = turn'.ident := by
  obtain ⟨alloc, inv⟩ := Reflects.of_run run
  constructor
  · intro turn t reply answered
    obtain ⟨b, listed, carried, lease⟩ := acked_lease run answered
    obtain ⟨keyed, live⟩ := IpBinding.leasedTo_iff.mp lease
    constructor
    · rintro ⟨c, listed', -, carried', owned, -⟩
      have one : b = c := alloc.owner_unique listed listed' (carried.trans carried'.symm)
      rw [← one, keyed] at owned
      exact hlen_of_ackKey owned
    · intro ethernet
      have key := ackKey_eq_ident ethernet
      obtain ⟨earlier, ip, offer, sent, made, client, address⟩ :=
        offered_of_grant (mostRecent_of_acked run answered).grant_mem
      exact ⟨b, listed, live, carried, keyed.trans key, earlier, ip, offer, sent, made,
        client.trans key, address.trans carried.symm⟩
  · intro turn turn' reply reply' entry entry' ethernet ethernet' same
    rw [← ackKey_eq_ident ethernet, ← ackKey_eq_ident ethernet']
    have one := grant_of_acked run entry
    have other := grant_of_acked run entry'
    rw [← same] at other
    exact inv.kept.one_holder one other

theorem ack_to_owner_ethernet : ∃ h s t reply, Run serve (Server.fresh lanPool lanConfig) h s ∧
    serve s (requestFor macA 0xC0A80110#32).turn = some (t, .acked reply) ∧
    AckToOwner h s (requestFor macA 0xC0A80110#32).turn reply := by
  obtain ⟨s, h, run, -, check⟩ := @Run.of_check _ _ _ serve (Server.fresh lanPool lanConfig)
    [(discover macA).turn, (discover macB).turn]
    (fun s _ => lookupAddress s.bindings (requestFor macA 0xC0A80110#32).turn.ackKey == some 0xC0A80110#32)
    (by decide)
  have answered := serve_ack (eq_of_beq check) (dispatch_requestFor _ _) rfl
  obtain ⟨owner, -⟩ := ack_to_owner_iff run
  exact ⟨h, s, _, _, run, answered, (owner _ _ _ answered).mpr (ClientMessage.hlen_task _)⟩

/-- A client with seven bytes of identifier whose first six are the address of `macA`. -/
def sevenBytes : ClientMessage := { requestFor (macA ++ [0x01#8]) 0xC0A80110#32 with hlen := 7#8 }

/-- The server has acknowledged the address to its owner, and does so again to a client it never
made an OFFER to. -/
theorem ack_to_stranger : ∃ h s turn t reply owned, Run serve (Server.fresh lanPool lanConfig) h s ∧
    serve s sevenBytes.turn = some (t, .acked reply) ∧ ¬ AckToOwner h s sevenBytes.turn reply ∧
    (turn, .acked owned) ∈ h ∧ turn.ident ≠ sevenBytes.turn.ident ∧
      ntohl owned.message.yiaddr = ntohl reply.message.yiaddr := by
  obtain ⟨s, h, run, -, check⟩ := @Run.of_check _ _ _ serve (Server.fresh lanPool lanConfig)
    [(discover macA).turn]
    (fun s _ => lookupAddress s.bindings (requestFor macA 0xC0A80110#32).turn.ackKey == some 0xC0A80110#32 &&
      lookupAddress s.bindings sevenBytes.turn.ackKey == some 0xC0A80110#32 &&
      s.bindings.all fun b => b.cident != sevenBytes.turn.ident)
    (by decide)
  simp only [Bool.and_eq_true, beq_iff_eq, List.all_eq_true, bne_iff_ne] at check
  obtain ⟨⟨owned, found⟩, strangers⟩ := check
  have called : dispatch sevenBytes.turn.task = .ack := ClientMessage.dispatch_task _ (by decide)
  have run' := run.snoc (serve_ack owned (dispatch_requestFor _ _) rfl)
  refine ⟨_, _, _, _, _, _, run', serve_ack found called rfl, ?_, .head _, by decide, ?_⟩
  · rintro ⟨b, listed, -, -, same, -⟩
    exact strangers b listed same
  · rw [ackReply, ackReply, ackMessage_yiaddr, ackMessage_yiaddr]

/-! ## The address the client selected -/

/-- Of all addresses the most recent live OFFER is acknowledged. -/
theorem acked_iff_mostRecent (run : Run serve (Server.fresh pool config) h s)
    (answered : serve s turn = some (t, .acked reply)) (a : BitVec 32) :
    ntohl reply.message.yiaddr = a ↔ Ledger.MostRecent turn.ackKey a (book h) := by
  have newest := Ledger.head_outstanding_iff.mpr (mostRecent_of_acked run answered)
  rw [← Ledger.head_outstanding_iff, newest, Option.some.injEq]

/-- **A selected address is acknowledged exactly when it is the most recent live OFFER** of the
client the six bytes at `chaddr` name. The option itself is never read, so of no address it makes a
difference whether the request carries it. -/
theorem ack_of_selected_iff (run : Run serve (Server.fresh pool config) h s)
    (answered : serve s turn = some (t, .acked reply)) :
    ∀ a, CarriesAddress turn.request a →
      (ntohl reply.message.yiaddr = a ↔ Ledger.MostRecent turn.ackKey a (book h)) :=
  fun a _ => acked_iff_mostRecent run answered a

theorem ack_of_selected_newest : ∃ h s t reply, Run serve (Server.fresh lanPool lanConfig) h s ∧
    serve s (requestFor macA 0xC0A80111#32).turn = some (t, .acked reply) ∧
    CarriesAddress (requestFor macA 0xC0A80111#32).turn.request 0xC0A80111#32 ∧
    ntohl reply.message.yiaddr = 0xC0A80111#32 := by
  obtain ⟨s, h, run, -, check⟩ := @Run.of_check _ _ _ serve (Server.fresh lanPool lanConfig)
    [(discover macA).turn, (discover macA).turn]
    (fun s _ => lookupAddress s.bindings (requestFor macA 0xC0A80111#32).turn.ackKey == some 0xC0A80111#32)
    (by decide)
  have found := eq_of_beq check
  have answered := serve_ack found (dispatch_requestFor _ _) rfl
  have carries := requestFor_carries macA 0xC0A80111#32
  exact ⟨h, s, _, _, run, answered, carries,
    (ack_of_selected_iff run answered _ carries).mpr ((mostRecent_iff_lookup run).mpr found)⟩

/-- A client that selects the first of its two OFFERs is acknowledged the second. -/
theorem ack_of_other_offer : ∃ h s t reply, Run serve (Server.fresh lanPool lanConfig) h s ∧
    serve s (requestFor macA 0xC0A80110#32).turn = some (t, .acked reply) ∧
    CarriesAddress (requestFor macA 0xC0A80110#32).turn.request 0xC0A80110#32 ∧
    (∃ earlier ip offer sent, (earlier, .offered ip offer sent) ∈ h ∧
      earlier.ident = (requestFor macA 0xC0A80110#32).turn.ident ∧
      ntohl offer.message.yiaddr = 0xC0A80110#32) ∧
    ntohl reply.message.yiaddr ≠ 0xC0A80110#32 := by
  obtain ⟨s, h, run, -, check⟩ := @Run.of_check _ _ _ serve (Server.fresh lanPool lanConfig)
    [(discover macA).turn, (discover macA).turn]
    (fun s _ => lookupAddress s.bindings (requestFor macA 0xC0A80110#32).turn.ackKey == some 0xC0A80111#32 &&
      leases (requestFor macA 0xC0A80110#32).turn.ident s.bindings == [0xC0A80111#32, 0xC0A80110#32])
    (by decide)
  simp only [Bool.and_eq_true, beq_iff_eq] at check
  obtain ⟨found, both⟩ := check
  obtain ⟨-, inv⟩ := Reflects.of_run run
  rw [inv.leases] at both
  have selected : 0xC0A80110#32 ∈ Ledger.outstanding (requestFor macA 0xC0A80110#32).turn.ident (book h) := by
    rw [both]
    simp
  refine ⟨h, s, _, _, run, serve_ack found (dispatch_requestFor _ _) rfl, requestFor_carries _ _,
    offered_of_grant (Ledger.grant_of_outstanding selected), ?_⟩
  rw [ackReply, ackMessage_yiaddr]
  decide

end Acknowledge

end DhcpServer
