import DhcpServer.Retirements

/-!
# Duplicated datagrams

A message that is not a DISCOVER changes the state at most once: what a decline or a release takes
away was the only lease of its address, and a REQUEST overwrites the configuration with values of
its own. The C library may answer the second turn otherwise than the first.
-/

namespace DhcpServer
set_option autoImplicit false
open Lib

section Again
variable {pool : IpPoolInd} {s t : Server} {turn turn' : Turn} {action : Action}

/-- The request of a duplicate. -/
theorem request_of_task (same : turn'.task = turn.task) : turn'.request = turn.request :=
  congrArg ClientTask.request same

/-- The client it comes from. -/
theorem ident_of_task (same : turn'.task = turn.task) : turn'.ident = turn.ident :=
  congrArg DhcpMessage.ident (request_of_task same)

/-- After a decline, the same decline is refused. -/
theorem decline_again (inv : Allocated pool s) (inv' : Allocated pool t) (same : turn'.task = turn.task)
    (first : handleDHCPDecline s turn = .returned t action) :
    handleDHCPDecline t turn' = .returned t .refused ∧ action.reply = none := by
  rw [handleDHCPDecline_eq inv] at first
  rw [handleDHCPDecline_eq inv', request_of_task same, ident_of_task same]
  split at first
  · cases first
    exact ⟨if_neg fun newest => not_mem_leases_withoutAddress _ _ _ (newestLease_mem newest), rfl⟩
  · rename_i unnamed
    cases first
    exact ⟨if_neg unnamed, rfl⟩

/-- After a release, the same release is refused. -/
theorem release_again (inv : Allocated pool s) (inv' : Allocated pool t) (same : turn'.task = turn.task)
    (first : handleDHCPRelease s turn = .returned t action) :
    handleDHCPRelease t turn' = .returned t .refused ∧ action.reply = none := by
  rw [handleDHCPRelease_eq inv] at first
  rw [handleDHCPRelease_eq inv', request_of_task same, ident_of_task same]
  split at first
  · cases first
    exact ⟨if_neg fun newest => not_mem_leases_releaseAddress _ _ _ (newestLease_mem newest), rfl⟩
  · rename_i unnamed
    cases first
    exact ⟨if_neg unnamed, rfl⟩

theorem sendDHCPAck_found {b : Fin s.bindings.length}
    (search : searchBinding s.bindings turn.ackKey .staticOrDynamic .associated = some b) :
    sendDHCPAck s turn = if turn.sendOk then
      .returned { s with config := ackConfig s.config } (.acked (ackReply s turn (s.bindings.get b).address))
      else .exited := by
  rw [sendDHCPAck, search]
  rfl

/-- After an ACK, the same REQUEST is acknowledged alike. -/
theorem ack_again (same : turn'.task = turn.task) (first : sendDHCPAck s turn = .returned t action) :
    sendDHCPAck t turn' = .returned t action ∨ turn'.sendOk = false ∧ sendDHCPAck t turn' = .exited := by
  have request := request_of_task same
  have key : turn'.ackKey = turn.ackKey := by rw [Turn.ackKey, Turn.ackKey, request]
  cases search : searchBinding s.bindings turn.ackKey .staticOrDynamic .associated with
  | none =>
    rw [sendDHCPAck, search] at first
    cases first
    left
    rw [sendDHCPAck, key, search]
  | some b =>
    rw [sendDHCPAck_found search] at first
    split at first
    · cases first
      -- the configuration has its final value, so the reply is built from the same
      have again := @sendDHCPAck_found { s with config := ackConfig s.config } turn' b (key ▸ search)
      have reply : ackReply { s with config := ackConfig s.config } turn' (s.bindings.get b).address =
          ackReply s turn (s.bindings.get b).address := by
        rw [ackReply, ackReply, ackConfig_ackConfig, request]
      rw [ackConfig_ackConfig, reply] at again
      rw [again]
      cases turn'.sendOk with
      | true => exact Or.inl rfl
      | false => exact Or.inr ⟨rfl, rfl⟩
    · cases first

/-- A handler that replies and changes nothing does the same again. -/
theorem resend_again {handler : Server → Turn → Outcome} (answer : Server → ClientTask → Action)
    (resends : ∀ s turn, handler s turn = if turn.sendOk then .returned s (answer s turn.task) else .exited)
    (same : turn'.task = turn.task) (first : handler s turn = .returned t action) :
    handler t turn' = .returned t action ∨ turn'.sendOk = false ∧ handler t turn' = .exited := by
  rw [resends] at first
  split at first
  · cases first
    rw [resends, same]
    cases turn'.sendOk with
    | true => exact Or.inl rfl
    | false => exact Or.inr ⟨rfl, rfl⟩
  · cases first

theorem inform_again (same : turn'.task = turn.task) (first : handleDHCPInformReply s turn = .returned t action) :
    handleDHCPInformReply t turn' = .returned t action ∨
      turn'.sendOk = false ∧ handleDHCPInformReply t turn' = .exited :=
  resend_again (fun s task => .informed ⟨informReply task.request s.config, task.clientAddr⟩)
    (fun _ _ => rfl) same first

theorem nack_again (same : turn'.task = turn.task) (first : sendDHCPNACK s turn = .returned t action) :
    sendDHCPNACK t turn' = .returned t action ∨ turn'.sendOk = false ∧ sendDHCPNACK t turn' = .exited :=
  resend_again (fun _ task => .nacked ⟨nackMessage task.request, task.clientAddr⟩)
    (fun _ _ => rfl) same first

end Again

/-- **Duplicated datagrams are harmless for everything but DISCOVER.** Handled again, such a message
finds the state it leaves behind and leaves it so, and is given the same reply, or the process exits
over a `sendto` that fails. -/
theorem duplicate_harmless {pool : IpPoolInd} {config : DhcpConfig} {h : History} {s t : Server} {turn turn' : Turn}
    {action : Action} (run : Run serve (Server.fresh pool config) h s)
    (type : turn.messageType ≠ DhcpMsgType.discover.code) (first : handleClient s turn = .returned t action)
    (same : turn'.task = turn.task) :
    (∃ action', handleClient t turn' = .returned t action' ∧ action'.reply = action.reply) ∨
      turn'.sendOk = false ∧ handleClient t turn' = .exited := by
  have inv := Allocated.of_run run
  have inv' := inv.served (served_of_serve (serve_of_returned first))
  unfold handleClient at first ⊢
  rw [same]
  cases called : dispatch turn.task with
  | ignore =>
    rw [called] at first
    cases first
    exact Or.inl ⟨_, rfl, rfl⟩
  | offer => exact (type (discover_of_offer _ (dispatch_type called nofun))).elim
  | ack =>
    rw [called] at first
    exact (ack_again same first).imp_left fun again => ⟨action, again, rfl⟩
  | decline =>
    rw [called] at first
    obtain ⟨again, none⟩ := decline_again inv inv' same first
    exact Or.inl ⟨_, again, none.symm⟩
  | release =>
    rw [called] at first
    obtain ⟨again, none⟩ := release_again inv inv' same first
    exact Or.inl ⟨_, again, none.symm⟩
  | inform =>
    rw [called] at first
    exact (inform_again same first).imp_left fun again => ⟨action, again, rfl⟩
  | nack =>
    rw [called] at first
    exact (nack_again same first).imp_left fun again => ⟨action, again, rfl⟩

/-- A client with two leases declines the newer one twice. -/
theorem duplicate_harmless_decline : ∃ h s t action, Run serve (Server.fresh lanPool lanConfig) h s ∧
    s.bindings.map IpBinding.address = [0xC0A80111#32, 0xC0A80110#32] ∧
    t.bindings.map IpBinding.address = [0xC0A80110#32] ∧
    handleClient s (declineOf macA 0xC0A80111#32).turn = .returned t action ∧
    ((∃ action', handleClient t (declineOf macA 0xC0A80111#32).turn = .returned t action' ∧
        action'.reply = action.reply) ∨
      (declineOf macA 0xC0A80111#32).turn.sendOk = false ∧
        handleClient t (declineOf macA 0xC0A80111#32).turn = .exited) := by
  obtain ⟨s, h, run, -, check⟩ := @Run.of_check _ _ _ serve (Server.fresh lanPool lanConfig)
    [(discover macA).turn, (discover macA).turn]
    (fun s _ => s.bindings.map IpBinding.address == [0xC0A80111#32, 0xC0A80110#32] &&
      (serve s (declineOf macA 0xC0A80111#32).turn).any
        fun r => r.1.bindings.map IpBinding.address == [0xC0A80110#32]) (by decide)
  obtain ⟨before, declined⟩ := Bool.and_eq_true_iff.mp check
  obtain ⟨⟨t, action⟩, served, after⟩ := (Option.any_eq_true _ _).mp declined
  have first := returned_of_serve served
  refine ⟨h, s, t, action, run, eq_of_beq before, eq_of_beq after, first, ?_⟩
  exact duplicate_harmless run (by rw [Turn.messageType]; decide) first rfl

end DhcpServer
