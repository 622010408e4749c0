import DhcpServer.ReplyDecode
import DhcpServer.Step

/-!
# The configuration along a run

Only `send_DHCP_Ack` writes to the shared configuration, and it always writes the same: a netmask
into `subnet` and a DNS server into `dns[0]`. After the first ACK the configuration is
`ackConfig` of the loaded one, and every ACK is built from that.
-/

namespace DhcpServer
set_option autoImplicit false
open Lib

section Kept
variable {pool : IpPoolInd} {config : DhcpConfig} {h : History} {s t : Server} {turn : Turn} {action : Action}
  {reply : Reply}

/-- Whether a REQUEST of the run was acknowledged. -/
def acked (h : History) : Bool :=
  h.any fun e => match e.2 with
    | .acked _ => true
    | _ => false

theorem acked_iff : acked h = true ↔ ∃ turn reply, (turn, .acked reply) ∈ h := by
  simp only [acked, List.any_eq_true]
  constructor
  · rintro ⟨⟨turn, action⟩, entry, ack⟩
    cases action with
    | acked reply => exact ⟨turn, reply, entry⟩
    | _ => cases ack
  · rintro ⟨turn, reply, entry⟩
    exact ⟨_, entry, rfl⟩

/-- **The configuration** is the loaded one up to the first ACK, and then `ackConfig` of it. -/
theorem config_of_run (run : Run serve (Server.fresh pool config) h s) :
    s.config = if acked h then ackConfig config else config := by
  induction run with
  | start => rfl
  | @snoc h s t turn action _ stepped ih =>
    cases served_of_serve stepped with
    | acked =>
      show ackConfig s.config = ackConfig config
      rw [ih]
      split
      · exact ackConfig_ackConfig config
      · rfl
    | _ => exact ih

/-- **Every ACK** is built from the same configuration. -/
theorem acked_of_run (run : Run serve (Server.fresh pool config) h s) (entry : (turn, .acked reply) ∈ h) :
    ∃ address, reply.message = ackMessage turn.request address (ackConfig config) := by
  obtain ⟨newer, older, rfl⟩ := List.append_of_mem entry
  obtain ⟨u, t, before, stepped, -⟩ := run.step_at
  have config_u := config_of_run before
  cases served_of_serve stepped with
  | acked =>
    refine ⟨_, congrArg (ackMessage turn.request _) ?_⟩
    rw [config_u]
    split
    · exact ackConfig_ackConfig config
    · rfl

/-! ## What the replies convey -/

/-- The ACK advertises the loaded netmask and DNS server, and names the server as the OFFER does. -/
structure Advertises (config : DhcpConfig) (ack : DhcpMessage) : Prop where
  subnetMask : ∃ opt ∈ ((parseOptionsToList [] 312#64).run ack.options).2,
    opt.id = OptionCode.subnetMask ∧ opt.data = be32 config.netmask
  dns : ∃ opt ∈ ((parseOptionsToList [] 312#64).run ack.options).2,
    opt.id = OptionCode.domainNameServer ∧ opt.data = be32 (config.dns.get 0)
  siaddr : ∀ request ip, ack.siaddr = (offerMessage request ip config).siaddr

/-- The loaded configuration after a run: its fields are as they were, every ACK advertises it, and
the INFORM reply to any request is the one of the start. -/
structure Conveyed (config : DhcpConfig) (h : History) (s : Server) : Prop where
  kept : s.config = config
  acks : ∀ turn reply, (turn, .acked reply) ∈ h → Advertises config reply.message
  informs : ∀ request, informReply request s.config = informReply request config

/-- The configuration has the values that `send_DHCP_Ack` has built in. -/
structure BuiltIn (config : DhcpConfig) : Prop where
  subnet : config.subnet = 0xFFFFFF00#32
  netmask : config.netmask = 0xFFFFFF00#32
  router : config.router = 0xC0A80101#32
  dns : config.dns.get 0 = 0x08080808#32

theorem BuiltIn.ackConfig (builtIn : BuiltIn config) : ackConfig config = config := by
  have dns : config.dns.set 0 0x08080808#32 = config.dns := by
    rw [← builtIn.dns]
    exact Vector.set_getElem_self _
  rw [DhcpServer.ackConfig, dns, ← builtIn.subnet]

/-- What an ACK advertises when the copy to `chaddr` leaves its options alone. -/
theorem advertises_iff {request : DhcpMessage} {address : BitVec 32} (clear : ClearOfOptions request) :
    Advertises config (ackMessage request address (ackConfig config)) ↔
      config.netmask = 0xFFFFFF00#32 ∧ config.dns.get 0 = 0x08080808#32 ∧ config.router = 0xC0A80101#32 := by
  have parsed : (parseOptionsToList [] 312#64).run (ackMessage request address (ackConfig config)).options = _ :=
    (ack_decodes address clear).parsed
  have offerSiaddr : ∀ request ip, (offerMessage request ip config).siaddr = htonl config.router :=
    fun _ _ => buildReply_siaddr
  have ackSiaddr : (ackMessage request address (ackConfig config)).siaddr = htonl 0xC0A80101#32 := buildReply_siaddr
  constructor
  · rintro ⟨⟨mask, maskIn, maskId, maskData⟩, ⟨dns, dnsIn, dnsId, dnsData⟩, siaddr⟩
    rw [parsed] at maskIn dnsIn
    have single : (List.map DhcpOption.id [byteOption 53#8 5#8, wordOption 51#8 config.maxLeaseTime,
        wordOption 1#8 0xFFFFFF00#32, wordOption 3#8 config.router, wordOption 6#8 0x08080808#32]).Nodup :=
      (by decide : [53#8, 51#8, 1#8, 3#8, 6#8].Nodup)
    have mask_eq : mask = wordOption 1#8 0xFFFFFF00#32 :=
      List.inj_on_of_nodup_map single maskIn (by simp) maskId
    have dns_eq : dns = wordOption 6#8 0x08080808#32 := List.inj_on_of_nodup_map single dnsIn (by simp) dnsId
    subst mask_eq dns_eq
    refine ⟨(be32_injective maskData).symm, (be32_injective dnsData).symm, ?_⟩
    have same := siaddr request address
    rw [ackSiaddr, offerSiaddr] at same
    exact (htonl_injective same).symm
  · rintro ⟨netmask, dns, router⟩
    constructor
    · rw [parsed, netmask]
      exact ⟨wordOption 1#8 0xFFFFFF00#32, by simp, rfl, rfl⟩
    · rw [parsed, dns]
      exact ⟨wordOption 6#8 0x08080808#32, by simp, rfl, rfl⟩
    · intro request' ip
      rw [ackSiaddr, offerSiaddr, router]

/-- The requests that were acknowledged have an `hlen` of at most 208. -/
def AckedClear (h : History) : Prop := ∀ turn reply, (turn, .acked reply) ∈ h → ClearOfOptions turn.request

theorem conveyed_of_builtIn (run : Run serve (Server.fresh pool config) h s)
    (safe : acked h = true → BuiltIn config ∧ AckedClear h) : Conveyed config h s := by
  have kept : s.config = config := by
    rw [config_of_run run]
    split
    · rename_i ack
      exact (safe ack).1.ackConfig
    · rfl
  constructor
  · exact kept
  · intro turn reply entry
    obtain ⟨builtIn, clear⟩ := safe (acked_iff.mpr ⟨turn, reply, entry⟩)
    obtain ⟨address, message⟩ := acked_of_run run entry
    rw [message, advertises_iff (clear turn reply entry)]
    exact ⟨builtIn.netmask, builtIn.dns, builtIn.router⟩
  · intro request
    rw [kept]

theorem builtIn_of_conveyed (run : Run serve (Server.fresh pool config) h s) (clear : AckedClear h)
    (conveyed : Conveyed config h s) (ack : acked h = true) : BuiltIn config := by
  obtain ⟨turn, reply, entry⟩ := acked_iff.mp ack
  obtain ⟨address, message⟩ := acked_of_run run entry
  have advertised := conveyed.acks turn reply entry
  rw [message, advertises_iff (clear turn reply entry)] at advertised
  obtain ⟨netmask, dns, router⟩ := advertised
  have changed := config_of_run run
  rw [if_pos ack, conveyed.kept] at changed
  exact ⟨congrArg DhcpConfig.subnet changed, netmask, router, dns⟩

/-- **When the loaded configuration is kept and conveyed**: as long as no REQUEST is acknowledged, and
afterwards when it has the values built into the ACK and no copy to `chaddr` reached the options.
In a run without such a copy there is no other way. -/
theorem config_conveyed (run : Run serve (Server.fresh pool config) h s) :
    ((acked h = true → BuiltIn config ∧ AckedClear h) → Conveyed config h s) ∧
    (AckedClear h → (Conveyed config h s ↔ (acked h = true → BuiltIn config))) := by
  refine ⟨conveyed_of_builtIn run, fun clear => ⟨builtIn_of_conveyed run clear, fun builtIn => ?_⟩⟩
  exact conveyed_of_builtIn run fun ack => ⟨builtIn ack, clear⟩

/-- A configuration with the built-in values. -/
def builtInConfig : DhcpConfig := { lanConfig with subnet := 0xFFFFFF00#32 }

theorem config_conveyed_builtIn : ∃ h s, Run serve (Server.fresh lanPool builtInConfig) h s ∧
    h.map Prod.fst = [(requestFor macA 0xC0A80110#32).turn, (discover macA).turn] ∧ acked h = true ∧
    Conveyed builtInConfig h s := by
  obtain ⟨s, h, run, inputs, ack⟩ := @Run.of_check _ _ _ serve (Server.fresh lanPool builtInConfig)
    [(discover macA).turn, (requestFor macA 0xC0A80110#32).turn] (fun _ h => acked h) (by decide)
  refine ⟨h, s, run, inputs, ack, (config_conveyed run).1 fun _ => ⟨⟨rfl, rfl, rfl, rfl⟩, ?_⟩⟩
  intro turn reply entry
  have sender : turn ∈ h.map Prod.fst := List.mem_map_of_mem entry
  have clear : ∀ turn ∈ [(requestFor macA 0xC0A80110#32).turn, (discover macA).turn],
      turn.request.hlen = 6#8 := by decide
  rw [inputs] at sender
  rw [ClearOfOptions, clear turn sender]
  decide

/-- The network 10.0.0.0/16 with its own gateway and DNS server. -/
def officeConfig : DhcpConfig :=
  { lanConfig with
    subnet := 0x0A000000#32
    netmask := 0xFFFF0000#32
    router := 0x0A0000FE#32
    dns := #v[0x0A000001#32, 0x0A000002#32] }

/-- One acknowledged REQUEST, and the INFORM replies name another DNS server. -/
theorem config_not_conveyed : ∃ h s, Run serve (Server.fresh lanPool officeConfig) h s ∧
    h.map Prod.fst = [(requestFor macA 0xC0A80110#32).turn, (discover macA).turn] ∧
    s.config.dns.get 0 = 0x08080808#32 ∧ ¬ Conveyed officeConfig h s := by
  obtain ⟨s, h, run, inputs, check⟩ := @Run.of_check _ _ _ serve (Server.fresh lanPool officeConfig)
    [(discover macA).turn, (requestFor macA 0xC0A80110#32).turn]
    (fun s _ => s.config.dns.get 0 == 0x08080808#32) (by decide)
  have changed : s.config.dns.get 0 = 0x08080808#32 := eq_of_beq check
  refine ⟨h, s, run, inputs, changed, fun conveyed => ?_⟩
  rw [conveyed.kept] at changed
  exact absurd changed (by decide)

end Kept

end DhcpServer
