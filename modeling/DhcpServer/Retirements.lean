import DhcpServer.Leases

/-!
# What a decline and a release take away

Both handlers look the client up first and compare the address afterwards. In terms of leases: they
act on the client's newest lease when the message names it, and do nothing otherwise. `handle_client`
calls the decline handler at label 5, which is `DHCP_ACK` of `enum dhcp_msg_type`.
-/

namespace DhcpServer
set_option autoImplicit false
open Lib

/-- The bindings without the one of address `a`. -/
def withoutAddress (a : BitVec 32) (bindings : BindingList) : BindingList :=
  bindings.filter fun b => b.address != a

/-- The bindings with the one of address `a` released. -/
def releaseAddress (a : BitVec 32) (bindings : BindingList) : BindingList :=
  bindings.map fun b => if b.address == a then b.release else b

/-- The address of the client's most recent `ASSOCIATED` binding. -/
def newestLease (c : ClientIdent) (bindings : BindingList) : Option (BitVec 32) := (leases c bindings).head?

theorem newestLease_mem {c : ClientIdent} {bindings : BindingList} {a : BitVec 32}
    (newest : newestLease c bindings = some a) : a ∈ leases c bindings :=
  List.mem_of_mem_head? newest

/-- After the removal nobody leases the address. -/
theorem not_mem_leases_withoutAddress (c : ClientIdent) (a : BitVec 32) (bindings : BindingList) :
    a ∉ leases c (withoutAddress a bindings) := by
  intro leased
  obtain ⟨b, member, -, address⟩ := mem_leases.mp leased
  exact bne_iff_ne.mp (List.mem_filter.mp member).2 address

/-- Nor after the release. -/
theorem not_mem_leases_releaseAddress (c : ClientIdent) (a : BitVec 32) (bindings : BindingList) :
    a ∉ leases c (releaseAddress a bindings) := by
  intro leased
  obtain ⟨b, member, lease, address⟩ := mem_leases.mp leased
  obtain ⟨b', -, rfl⟩ := List.mem_map.mp member
  split at lease
  · cases (IpBinding.leasedTo_iff.mp lease).2
  · rename_i other
    rw [if_neg other] at address
    exact other (beq_iff_eq.mpr address)

section Handlers
variable {pool : IpPoolInd} {s : Server} {turn : Turn}

/-- A decline removes the newest lease when it names it. -/
theorem handleDHCPDecline_eq (inv : Allocated pool s) : handleDHCPDecline s turn =
    if newestLease turn.ident s.bindings = some (ntohl turn.request.yiaddr) then
      .returned { s with bindings := withoutAddress (ntohl turn.request.yiaddr) s.bindings }
        (.declined (ntohl turn.request.yiaddr))
    else .returned s .refused := by
  have newest := @head_leases _ turn.ident .dynamic inv.dynamic nofun
  cases search : searchBinding s.bindings turn.ident .dynamic .associated with
  | none =>
    rw [search, Option.map_none] at newest
    rw [handleDHCPDecline, search, newestLease, newest, if_neg nofun]
  | some b =>
    rw [search, Option.map_some] at newest
    obtain ⟨front, back, split, -, -, removed, -⟩ := searchBinding_split search
    have filtered := filter_key_split split inv.distinct
    simp only [handleDHCPDecline, search, newestLease, newest, Option.some.injEq]
    by_cases named : (s.bindings.get b).address = ntohl turn.request.yiaddr
    · rw [if_pos named, if_pos named, removed, ← filtered, named]
      rfl
    · rw [if_neg named, if_neg named]

/-- A release ends the newest lease when it names it. -/
theorem handleDHCPRelease_eq (inv : Allocated pool s) : handleDHCPRelease s turn =
    if newestLease turn.ident s.bindings = some (ntohl turn.request.ciaddr) then
      .returned { s with bindings := releaseAddress (ntohl turn.request.ciaddr) s.bindings }
        (.released (ntohl turn.request.ciaddr))
    else .returned s .refused := by
  have newest := @head_leases _ turn.ident .staticOrDynamic inv.dynamic nofun
  cases search : searchBinding s.bindings turn.ident .staticOrDynamic .associated with
  | none =>
    rw [search, Option.map_none] at newest
    rw [handleDHCPRelease, search, newestLease, newest, if_neg nofun]
  | some b =>
    rw [search, Option.map_some] at newest
    obtain ⟨front, back, split, -, -, -, updated⟩ := searchBinding_split search
    have mapped := map_key_split split inv.distinct IpBinding.release
    simp only [handleDHCPRelease, search, newestLease, newest, Option.some.injEq]
    by_cases named : (s.bindings.get b).address = ntohl turn.request.ciaddr
    · rw [if_pos named, if_pos named, updated, ← mapped, named]
      rfl
    · rw [if_neg named, if_neg named]

end Handlers

/-! ## Which messages remove a binding -/

/-- What tells a binding from the others. -/
def IpBinding.key (b : IpBinding) : BitVec 32 × ClientIdent := (b.address, b.cident)

/-- A message of type `DHCP_DECLINE` takes the newest lease off the list when it names it, and a
message of any other type takes nothing off. -/
def OnlyDeclineRemoves (s : Server) (turn : Turn) : Prop :=
  ∀ t action, handleClient s turn = .returned t action →
    (turn.messageType = DhcpMsgType.decline.code →
      newestLease turn.ident s.bindings = some (ntohl turn.request.yiaddr) →
      t.bindings = withoutAddress (ntohl turn.request.yiaddr) s.bindings) ∧
    (turn.messageType ≠ DhcpMsgType.decline.code →
      (s.bindings.map IpBinding.key).Sublist (t.bindings.map IpBinding.key))

section Removal
variable {pool : IpPoolInd} {s t : Server} {turn : Turn} {action : Action}

/-- The other handlers keep every binding. -/
theorem keys_of_served (served : Served s turn t action) (other : dispatch turn.task ≠ .decline) :
    (s.bindings.map IpBinding.key).Sublist (t.bindings.map IpBinding.key) := by
  cases served with
  | offered => exact List.sublist_cons_self _ _
  | declined called => exact (other called).elim
  | @released b =>
    have same : ∀ b : IpBinding, b.release.key = b.key := fun _ => rfl
    rw [map_updateBinding s.bindings b same]
  | _ => exact List.Sublist.refl _

/-- The case labels 4 and 5. -/
theorem handleClient_four (addressed : turn.Addressed) (type : turn.messageType = DhcpMsgType.decline.code) :
    handleClient s turn = .returned s .ignored := by
  rw [handleClient, addressed.dispatch, type]
  rfl

theorem handleClient_five (addressed : turn.Addressed) (type : turn.messageType = DhcpMsgType.ack.code) :
    handleClient s turn = handleDHCPDecline s turn := by
  rw [handleClient, addressed.dispatch, type]
  rfl

theorem onlyDeclineRemoves_of_unnamed (inv : Allocated pool s)
    (unnamed : newestLease turn.ident s.bindings = some (ntohl turn.request.yiaddr) →
      turn.messageType ≠ DhcpMsgType.decline.code ∧ turn.messageType ≠ DhcpMsgType.ack.code) :
    OnlyDeclineRemoves s turn := by
  intro t action returned
  refine ⟨fun decline newest => ((unnamed newest).1 decline).elim, fun _ => ?_⟩
  by_cases called : dispatch turn.task = .decline
  · have label : turn.messageType = DhcpMsgType.ack.code := ack_of_decline _ (dispatch_type called nofun)
    rw [handleClient, called] at returned
    simp only at returned
    rw [handleDHCPDecline_eq inv, if_neg fun newest => (unnamed newest).2 label] at returned
    cases returned
    exact List.Sublist.refl _
  · exact keys_of_served (served_of_serve (serve_of_returned returned)) called

theorem unnamed_of_onlyDeclineRemoves (inv : Allocated pool s) (addressed : turn.Addressed)
    (only : OnlyDeclineRemoves s turn)
    (newest : newestLease turn.ident s.bindings = some (ntohl turn.request.yiaddr)) :
    turn.messageType ≠ DhcpMsgType.decline.code ∧ turn.messageType ≠ DhcpMsgType.ack.code := by
  constructor
  · -- nothing happens, and the lease is still there
    intro decline
    have removed := (only _ _ (handleClient_four addressed decline)).1 decline newest
    have leased := newestLease_mem newest
    rw [removed] at leased
    exact not_mem_leases_withoutAddress _ _ _ leased
  · -- the lease is gone
    intro ack
    have returned := @handleClient_five s turn addressed ack
    rw [handleDHCPDecline_eq inv, if_pos newest] at returned
    have kept := (only _ _ returned).2 (by rw [ack]; decide)
    obtain ⟨b, member, -, address⟩ := mem_leases.mp (newestLease_mem newest)
    obtain ⟨b', member', same⟩ := List.mem_map.mp (kept.subset (List.mem_map_of_mem member))
    have address' : b'.address = ntohl turn.request.yiaddr := (congrArg Prod.fst same).trans address
    exact bne_iff_ne.mp (List.mem_filter.mp member').2 address'

/-- **When a decline, and only a decline, removes a binding**: in a reachable state, unless the message
names the sender's newest lease and has type 4, which is ignored, or 5, which is handled as a decline. -/
theorem onlyDeclineRemoves_iff {config : DhcpConfig} {h : History}
    (run : Run serve (Server.fresh pool config) h s) (addressed : turn.Addressed) :
    OnlyDeclineRemoves s turn ↔
      (newestLease turn.ident s.bindings = some (ntohl turn.request.yiaddr) →
        turn.messageType ≠ DhcpMsgType.decline.code ∧ turn.messageType ≠ DhcpMsgType.ack.code) := by
  have inv := Allocated.of_run run
  exact ⟨unnamed_of_onlyDeclineRemoves inv addressed, onlyDeclineRemoves_of_unnamed inv⟩

end Removal

/-- The messages of a client reach the `switch`. -/
theorem addressed_ethernet {c : ClientMessage} (xid : c.xid ≠ 0#32) : c.turn.Addressed where
  received := by
    rw [ClientMessage.turn, c.recvBytes_task]
    decide
  op := c.op_task
  xid := by
    show c.task.request.xid ≠ 0#32
    rwa [c.xid_task]

/-- A REQUEST that happens to carry the leased address in `yiaddr`. -/
def requestNaming (mac : List Byte) (a : BitVec 32) : ClientMessage := { requestFor mac a with yiaddr := a }

theorem onlyDeclineRemoves_request : ∃ h s, Run serve (Server.fresh lanPool lanConfig) h s ∧
    newestLease (requestNaming macA 0xC0A80110#32).turn.ident s.bindings =
      some (ntohl (requestNaming macA 0xC0A80110#32).turn.request.yiaddr) ∧
    OnlyDeclineRemoves s (requestNaming macA 0xC0A80110#32).turn := by
  obtain ⟨s, h, run, -, check⟩ := @Run.of_check _ _ _ serve (Server.fresh lanPool lanConfig) [(discover macA).turn]
    (fun s _ => newestLease (requestNaming macA 0xC0A80110#32).turn.ident s.bindings ==
      some (ntohl (requestNaming macA 0xC0A80110#32).turn.request.yiaddr)) (by decide)
  have xid : (requestNaming macA 0xC0A80110#32).xid ≠ 0#32 := show 0xC0754D4C#32 ≠ 0#32 by decide
  have type : (requestNaming macA 0xC0A80110#32).turn.messageType = 3#8 := ClientMessage.messageType_task _
  refine ⟨h, s, run, eq_of_beq check, (onlyDeclineRemoves_iff run (addressed_ethernet xid)).mpr fun _ => ?_⟩
  rw [type]
  exact ⟨by decide, by decide⟩

/-- A DECLINE numbered as in `enum dhcp_msg_type`. -/
def enumDeclineOf (mac : List Byte) (a : BitVec 32) : ClientMessage :=
  { ethernet mac DhcpMsgType.decline.code [] with yiaddr := a }

/-- The client of the only lease declines it, and keeps it. -/
theorem enum_decline_ignored : ∃ h s, Run serve (Server.fresh lanPool lanConfig) h s ∧
    h.map Prod.fst = [(discover macA).turn] ∧
    newestLease (enumDeclineOf macA 0xC0A80110#32).turn.ident s.bindings =
      some (ntohl (enumDeclineOf macA 0xC0A80110#32).turn.request.yiaddr) ∧
    handleClient s (enumDeclineOf macA 0xC0A80110#32).turn = .returned s .ignored ∧
    ¬ OnlyDeclineRemoves s (enumDeclineOf macA 0xC0A80110#32).turn := by
  obtain ⟨s, h, run, inputs, check⟩ := @Run.of_check _ _ _ serve (Server.fresh lanPool lanConfig)
    [(discover macA).turn] (fun s _ => newestLease (enumDeclineOf macA 0xC0A80110#32).turn.ident s.bindings ==
      some (ntohl (enumDeclineOf macA 0xC0A80110#32).turn.request.yiaddr)) (by decide)
  have newest := eq_of_beq check
  have xid : (enumDeclineOf macA 0xC0A80110#32).xid ≠ 0#32 := show 0xC0754D4C#32 ≠ 0#32 by decide
  have addressed := addressed_ethernet xid
  have type : (enumDeclineOf macA 0xC0A80110#32).turn.messageType = DhcpMsgType.decline.code :=
    ClientMessage.messageType_task _
  refine ⟨h, s, run, inputs, newest, handleClient_four addressed type, fun only => ?_⟩
  exact (unnamed_of_onlyDeclineRemoves (Allocated.of_run run) addressed only newest).1 type

/-! ## Which binding a release ends -/

/-- The release of an address the client leases ends that lease; any other release changes nothing. -/
def ReleasesNamed (s : Server) (turn : Turn) : Prop :=
  (ntohl turn.request.ciaddr ∈ leases turn.ident s.bindings →
    ∃ action, handleClient s turn =
      .returned { s with bindings := releaseAddress (ntohl turn.request.ciaddr) s.bindings } action) ∧
  (ntohl turn.request.ciaddr ∉ leases turn.ident s.bindings →
    ∃ action, handleClient s turn = .returned s action)

section Release
variable {pool : IpPoolInd} {s : Server} {turn : Turn}

theorem releasesNamed_of_allocated (inv : Allocated pool s) (called : dispatch turn.task = .release) :
    ReleasesNamed s turn ↔ (ntohl turn.request.ciaddr ∈ leases turn.ident s.bindings →
      newestLease turn.ident s.bindings = some (ntohl turn.request.ciaddr)) := by
  have handled : handleClient s turn = handleDHCPRelease s turn := by rw [handleClient, called]
  rw [ReleasesNamed, handled, handleDHCPRelease_eq inv]
  by_cases newest : newestLease turn.ident s.bindings = some (ntohl turn.request.ciaddr)
  · rw [if_pos newest]
    exact iff_of_true ⟨fun _ => ⟨_, rfl⟩, fun absent => (absent (newestLease_mem newest)).elim⟩ fun _ => newest
  · rw [if_neg newest]
    constructor
    · rintro ⟨ends, -⟩ leased
      obtain ⟨_, unchanged⟩ := ends leased
      have bindings : s.bindings = releaseAddress (ntohl turn.request.ciaddr) s.bindings :=
        congrArg Server.bindings (Outcome.returned.inj unchanged).1
      rw [bindings] at leased
      exact (not_mem_leases_releaseAddress _ _ _ leased).elim
    · exact fun first => ⟨fun leased => (newest (first leased)).elim, fun _ => ⟨_, rfl⟩⟩

/-- **When a release hits the right binding**: when the client leases the address by its most recent
`ASSOCIATED` binding, or does not lease it. -/
theorem releasesNamed_iff {config : DhcpConfig} {h : History} (run : Run serve (Server.fresh pool config) h s)
    (called : dispatch turn.task = .release) :
    ReleasesNamed s turn ↔ (ntohl turn.request.ciaddr ∈ leases turn.ident s.bindings →
      newestLease turn.ident s.bindings = some (ntohl turn.request.ciaddr)) :=
  releasesNamed_of_allocated (Allocated.of_run run) called

end Release

theorem dispatch_releaseOf (mac : List Byte) (a : BitVec 32) : dispatch (releaseOf mac a).turn.task = .release :=
  (releaseOf mac a).dispatch_task (show 0xC0754D4C#32 ≠ 0#32 by decide)

/-- Of two leases a client releases the newer one. -/
theorem releasesNamed_newer : ∃ h s, Run serve (Server.fresh lanPool lanConfig) h s ∧
    h.map Prod.fst = [(discover macA).turn, (discover macA).turn] ∧
    ReleasesNamed s (releaseOf macA 0xC0A80111#32).turn := by
  obtain ⟨s, h, run, inputs, check⟩ := @Run.of_check _ _ _ serve (Server.fresh lanPool lanConfig)
    [(discover macA).turn, (discover macA).turn]
    (fun s _ => newestLease (releaseOf macA 0xC0A80111#32).turn.ident s.bindings ==
      some (ntohl (releaseOf macA 0xC0A80111#32).turn.request.ciaddr)) (by decide)
  refine ⟨h, s, run, inputs, (releasesNamed_iff run (dispatch_releaseOf macA 0xC0A80111#32)).mpr fun _ => ?_⟩
  exact eq_of_beq check

/-- The release of the older one is dropped. -/
theorem older_not_released : ∃ h s, Run serve (Server.fresh lanPool lanConfig) h s ∧
    h.map Prod.fst = [(discover macA).turn, (discover macA).turn] ∧
    ntohl (releaseOf macA 0xC0A80110#32).turn.request.ciaddr ∈
      leases (releaseOf macA 0xC0A80110#32).turn.ident s.bindings ∧
    ¬ ReleasesNamed s (releaseOf macA 0xC0A80110#32).turn := by
  obtain ⟨s, h, run, inputs, check⟩ := @Run.of_check _ _ _ serve (Server.fresh lanPool lanConfig)
    [(discover macA).turn, (discover macA).turn]
    (fun s _ => (leases (releaseOf macA 0xC0A80110#32).turn.ident s.bindings).contains
        (ntohl (releaseOf macA 0xC0A80110#32).turn.request.ciaddr) &&
      newestLease (releaseOf macA 0xC0A80110#32).turn.ident s.bindings !=
        some (ntohl (releaseOf macA 0xC0A80110#32).turn.request.ciaddr)) (by decide)
  obtain ⟨member, older⟩ := Bool.and_eq_true_iff.mp check
  have leased := List.contains_iff_mem.mp member
  refine ⟨h, s, run, inputs, leased, fun named => ?_⟩
  have called := dispatch_releaseOf macA 0xC0A80110#32
  exact bne_iff_ne.mp older ((releasesNamed_of_allocated (Allocated.of_run run) called).mp named leased)

end DhcpServer
