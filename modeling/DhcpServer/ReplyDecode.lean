import DhcpServer.Client
import DhcpServer.OptionList
import DhcpServer.ReplyLayout
import DhcpServer.TypeScan

/-!
# Replies read by the server's own decoders

The OFFER and the ACK carry exactly the serialized form of an option list. The other two replies
leave out the cookie, so neither decoder can read them.
-/

namespace DhcpServer
set_option autoImplicit false
open Lib

/-! ## Options of one byte and of one word -/

def byteOption (id value : Byte) : DhcpOption := ⟨id, [value], (by decide : 1 < 256)⟩

/-- A word in network order. -/
def wordOption (id : Byte) (value : BitVec 32) : DhcpOption where
  id := id
  data := be32 value
  bound := by
    rw [be32_length]
    decide

theorem octet_eq (v : BitVec 32) (k : Nat) : ((v >>> k) &&& 0xFF#32).setWidth 8 = v.extractLsb' k 8 := by
  apply BitVec.eq_of_getLsbD_eq
  intro i hi
  have mask : (0xFF#32).getLsbD i = true := by
    have : ∀ j : Fin 8, (0xFF#32).getLsbD j = true := by decide
    exact this ⟨i, hi⟩
  simp only [BitVec.getLsbD_setWidth, BitVec.getLsbD_and, BitVec.getLsbD_ushiftRight, mask,
    BitVec.getLsbD_extractLsb', hi, decide_true, Bool.true_and, Bool.and_true]

/-- The shifts of an unsigned word take its bytes in network order. -/
theorem wordOctets_eq (v : BitVec 32) : wordOctets v = be32 v := by
  simp only [wordOctets, be32, List.map_cons, List.map_nil, octet_eq]

theorem intOctet_eq (v : BitVec 32) {k : Nat} (inside : k + 8 ≤ 32) :
    (v.sshiftRight k &&& 0xFF#32).setWidth 8 = v.extractLsb' k 8 := by
  rw [← octet_eq]
  apply BitVec.eq_of_getLsbD_eq
  intro i hi
  have within : k + i < 32 := by omega
  have bit : ¬ 32 ≤ i := by omega
  simp only [BitVec.getLsbD_setWidth, BitVec.getLsbD_and, BitVec.getLsbD_sshiftRight,
    BitVec.getLsbD_ushiftRight, within, bit, if_true, decide_false, Bool.not_false, Bool.true_and]

/-- So do the arithmetic shifts of a signed one: the copies of the sign are masked off. -/
theorem intOctets_eq (v : BitVec 32) : intOctets v = be32 v := by
  simp only [intOctets, be32, List.map_cons, List.map_nil]
  rw [intOctet_eq v (by decide), intOctet_eq v (by decide), intOctet_eq v (by decide), intOctet_eq v (by decide)]

/-! ## The OFFER and the ACK -/

/-- The options of an OFFER. -/
def offerList (config : DhcpConfig) : List DhcpOption :=
  [byteOption OptionCode.dhcpMessageType DhcpMsgType.offer.code,
    wordOption OptionCode.ipAddressLeaseTime config.maxLeaseTime]

/-- The options of an ACK. -/
def ackList (config : DhcpConfig) : List DhcpOption :=
  [byteOption OptionCode.dhcpMessageType DhcpMsgType.ack.code,
    wordOption OptionCode.ipAddressLeaseTime config.maxLeaseTime,
    wordOption OptionCode.subnetMask config.subnet,
    wordOption OptionCode.router config.router,
    wordOption OptionCode.domainNameServer (config.dns.get 0)]

theorem offerOptions_eq (config : DhcpConfig) : offerOptions config = encodeOptions (offerList config) := by
  rw [offerOptions, intOctets_eq]
  rfl

theorem ackOptions_eq (config : DhcpConfig) : ackOptions config = encodeOptions (ackList config) := by
  rw [ackOptions, intOctets_eq, wordOctets_eq, wordOctets_eq, wordOctets_eq]
  rfl

/-- In an ACK the netmask and the DNS server are the ones the handler has just written. -/
theorem ackList_ackConfig (config : DhcpConfig) : ackList (ackConfig config) =
    [byteOption 53#8 5#8, wordOption 51#8 config.maxLeaseTime, wordOption 1#8 0xFFFFFF00#32,
      wordOption 3#8 config.router, wordOption 6#8 0x08080808#32] := by
  have dns : (ackConfig config).dns.get 0 = 0x08080808#32 := Vector.getElem_set_self _
  rw [ackList, dns]
  rfl

section Decode
variable {request : DhcpMessage} {config : DhcpConfig}

/-- The decoders on an options field: the full parser yields `options`, the scan the type. -/
structure Decodes (field : Memory) (options : List DhcpOption) (messageType : DhcpMsgType) : Prop where
  parsed : (parseOptionsToList [] (BitVec.ofNat 64 DhcpMessage.optionsSize)).run field = (true, options)
  scanned : getDhcpMessageType field DhcpMessage.optionsSize = messageType.code

/-- **A serialized list that starts with the message type is read by both decoders.** -/
theorem decodes_of_slice {field : Memory} {options rest : List DhcpOption} {messageType : DhcpMsgType}
    (listed : options = byteOption OptionCode.dhcpMessageType messageType.code :: rest)
    (unmarked : OptionCode.endMark ∉ options.map DhcpOption.id)
    (fits : (encodeOptions options).length ≤ (BitVec.ofNat 64 DhcpMessage.optionsSize).toNat)
    (lies : field.slice 0 (encodeOptions options).length = encodeOptions options) :
    Decodes field options messageType := by
  have unmarked' : ∀ opt ∈ options, opt.id ≠ OptionCode.endMark :=
    fun opt member mark => unmarked (mark ▸ List.mem_map_of_mem member)
  obtain ⟨cookie, chain⟩ := encoded_iff.mpr ⟨unmarked', fits, lies⟩
  constructor
  · exact run_parseOptionsToList cookie chain
  · obtain ⟨-, -, behind⟩ := optionChain_iff.mp chain
    rw [listed, chainBytes_cons, List.length_append, Memory.slice_append] at behind
    obtain ⟨first, -⟩ := List.append_inj behind (Memory.slice_length field 4 _)
    exact run_typeScanFrom_laid field DhcpMessage.optionsSize 4 (by decide) first

theorem buildReply_written {flags bytes : List Byte} {yiaddr siaddr : BitVec 32} (short : flags.length ≤ 2)
    (clear : ClearOfOptions request) :
    (buildReply request flags yiaddr siaddr bytes).options.slice 0 bytes.length = bytes := by
  apply Memory.slice_eq_of_getD
  intro k _
  rw [Nat.zero_add, buildReply_option short clear]

/-- **The OFFER is read as it was meant.** -/
theorem offer_decodes (ip : BitVec 32) (clear : ClearOfOptions request) :
    Decodes (offerMessage request ip config).options (offerList config) .offer := by
  have fits : (offerOptions config).length ≤ DhcpMessage.optionsSize := (by decide : 14 ≤ 312)
  have written : (offerMessage request ip config).options.slice 0 (offerOptions config).length =
      offerOptions config := buildReply_written (flags_short request) clear
  rw [offerOptions_eq] at fits written
  exact decodes_of_slice rfl (by decide : OptionCode.endMark ∉ [53#8, 51#8]) fits written

/-- **So is the ACK.** -/
theorem ack_decodes (address : BitVec 32) (clear : ClearOfOptions request) :
    Decodes (ackMessage request address (ackConfig config)).options
      [byteOption 53#8 5#8, wordOption 51#8 config.maxLeaseTime, wordOption 1#8 0xFFFFFF00#32,
        wordOption 3#8 config.router, wordOption 6#8 0x08080808#32] .ack := by
  have fits : (ackOptions (ackConfig config)).length ≤ DhcpMessage.optionsSize := (by decide : 32 ≤ 312)
  have written : (ackMessage request address (ackConfig config)).options.slice 0
      (ackOptions (ackConfig config)).length = ackOptions (ackConfig config) := buildReply_written noFlags clear
  rw [ackOptions_eq, ackList_ackConfig] at fits written
  exact decodes_of_slice rfl (by decide : OptionCode.endMark ∉ [53#8, 51#8, 1#8, 3#8, 6#8]) fits written

/-- **OFFER and ACK decode as intended.** For every request whose `hlen` is within `chaddr`, every
address and every configuration: both decoders read the options that were meant, `yiaddr` is the
address, and the rest answers the request. The server asks with `BOOTREQUEST` and answers with
`BOOTREPLY`. -/
theorem offer_ack_decode (request : DhcpMessage) (within : request.hlen.toNat ≤ DhcpMessage.chaddrSize)
    (address : BitVec 32) (config : DhcpConfig) :
    (Decodes (offerMessage request address config).options
        [byteOption 53#8 2#8, wordOption 51#8 config.maxLeaseTime] .offer ∧
      ntohl (offerMessage request address config).yiaddr = address ∧
      Answers request (offerMessage request address config)) ∧
    (Decodes (ackMessage request address (ackConfig config)).options
        [byteOption 53#8 5#8, wordOption 51#8 config.maxLeaseTime, wordOption 1#8 0xFFFFFF00#32,
          wordOption 3#8 config.router, wordOption 6#8 0x08080808#32] .ack ∧
      ntohl (ackMessage request address (ackConfig config)).yiaddr = address ∧
      Answers request (ackMessage request address (ackConfig config))) := by
  have clear := clearOfOptions_of_within within
  refine ⟨⟨offer_decodes address clear, offerMessage_yiaddr request address config, ?_⟩,
    ⟨ack_decodes address clear, ackMessage_yiaddr request address _, ?_⟩⟩
  · exact buildReply_answers (flags_short request) within
  · exact buildReply_answers noFlags within

theorem offer_ack_decode_discover :
    (Decodes (offerMessage (discover macA).task.request 0xC0A80110#32 lanConfig).options
        [byteOption 53#8 2#8, wordOption 51#8 7200#32] .offer ∧
      ntohl (offerMessage (discover macA).task.request 0xC0A80110#32 lanConfig).yiaddr = 0xC0A80110#32 ∧
      Answers (discover macA).task.request (offerMessage (discover macA).task.request 0xC0A80110#32 lanConfig)) ∧
    (Decodes (ackMessage (discover macA).task.request 0xC0A80110#32 (ackConfig lanConfig)).options
        [byteOption 53#8 5#8, wordOption 51#8 7200#32, wordOption 1#8 0xFFFFFF00#32,
          wordOption 3#8 0xC0A80101#32, wordOption 6#8 0x08080808#32] .ack ∧
      ntohl (ackMessage (discover macA).task.request 0xC0A80110#32 (ackConfig lanConfig)).yiaddr = 0xC0A80110#32 ∧
      Answers (discover macA).task.request
        (ackMessage (discover macA).task.request 0xC0A80110#32 (ackConfig lanConfig))) :=
  offer_ack_decode (discover macA).task.request
    (by rw [ClientMessage.hlen_task]; decide : _ ≤ DhcpMessage.chaddrSize) 0xC0A80110#32 lanConfig

/-- A request and its OFFER do not have the same `op`. -/
theorem offer_op_differs : (discover macA).task.request.hlen.toNat ≤ DhcpMessage.chaddrSize ∧
    (offerMessage (discover macA).task.request 0xC0A80110#32 lanConfig).op ≠ (discover macA).task.request.op := by
  have within : (discover macA).task.request.hlen.toNat ≤ DhcpMessage.chaddrSize := by
    rw [ClientMessage.hlen_task]
    decide
  have answers : Answers (discover macA).task.request
      (offerMessage (discover macA).task.request 0xC0A80110#32 lanConfig) :=
    buildReply_answers (flags_short _) within
  refine ⟨within, ?_⟩
  rw [answers.op, ClientMessage.op_task]
  decide

/-! ## The INFORM reply and the NACK -/

/-- Without the cookie's first byte no list is accepted. -/
theorem parse_without_cookie {field : Memory} {list : List DhcpOption} {len : BitVec 64}
    (other : field 0 ≠ 0x63#8) : ((parseOptionsToList list len).run field).1 = false := by
  rw [Bool.eq_false_iff]
  intro accepted
  obtain ⟨cookie, -⟩ := chain_of_parse accepted
  exact other (List.head_eq_of_cons_eq cookie)

/-- Over zeros the scan makes steps of two and finds nothing. -/
theorem run_typeScanFrom_zeros {field : Memory} {optionsLen n i : Nat} (even : i + 2 * n = optionsLen)
    (zeros : ∀ j, i ≤ j → field j = 0#8) : (typeScanFrom optionsLen i).run field = 0#8 := by
  induction n generalizing i with
  | zero => rw [run_typeScanFrom, if_neg (by omega)]
  | succ n ih =>
    have unended : field i ≠ OptionCode.endMark := by
      rw [zeros i (Nat.le_refl i)]
      decide
    have untyped : ¬ typedAt field i := by
      intro typed
      exact typed.2 (zeros (i + 1) (Nat.le_succ i))
    rw [run_typeScanFrom_skip field optionsLen i (by omega) unended untyped, zeros (i + 1) (Nat.le_succ i)]
    apply ih
    · change i + 2 + 0 + 2 * n = optionsLen
      omega
    · intro j above
      exact zeros j (Nat.le_trans (Nat.le_trans (Nat.le_add_right i 2) (Nat.le_add_right _ _)) above)

/-- What the server's decoders should make of a NACK. -/
structure NackReadable (request : DhcpMessage) : Prop where
  accepted : ((parseOptionsToList [] 312#64).run (nackMessage request).options).1 = true
  messageType : getDhcpMessageType (nackMessage request).options DhcpMessage.optionsSize = DhcpMsgType.nak.code

/-- What they should make of an INFORM reply: a defined type, and the DNS server of the configuration. -/
structure InformReadable (request : DhcpMessage) (config : DhcpConfig) : Prop where
  accepted : ((parseOptionsToList [] 312#64).run (informReply request config).options).1 = true
  messageType : ∃ t : DhcpMsgType,
    getDhcpMessageType (informReply request config).options DhcpMessage.optionsSize = t.code
  dns : ∃ opt ∈ ((parseOptionsToList [] 312#64).run (informReply request config).options).2,
    opt.id = OptionCode.domainNameServer ∧ opt.data = be32 (config.dns.get 0)

theorem nackMessage_option (within : request.hlen.toNat ≤ DhcpMessage.chaddrSize) (i : Nat) :
    (nackMessage request).options i = nackOptions.getD i 0#8 :=
  buildReply_option noFlags (clearOfOptions_of_within within)

theorem informReply_option (within : request.hlen.toNat ≤ DhcpMessage.chaddrSize) (i : Nat) :
    (informReply request config).options i = (informOptions config).getD i 0#8 :=
  buildReply_option noFlags (clearOfOptions_of_within within)

theorem nackMessage_rejected (within : request.hlen.toNat ≤ DhcpMessage.chaddrSize) :
    ((parseOptionsToList [] 312#64).run (nackMessage request).options).1 = false := by
  apply parse_without_cookie
  rw [nackMessage_option within]
  decide

theorem informReply_rejected (within : request.hlen.toNat ≤ DhcpMessage.chaddrSize) :
    ((parseOptionsToList [] 312#64).run (informReply request config).options).1 = false := by
  apply parse_without_cookie
  rw [informReply_option within]
  exact (by decide : (53#8 : Byte) ≠ 0x63#8)

theorem not_nackReadable (within : request.hlen.toNat ≤ DhcpMessage.chaddrSize) : ¬ NackReadable request := by
  intro readable
  have accepted := readable.accepted
  rw [nackMessage_rejected within] at accepted
  cases accepted

theorem not_informReadable (within : request.hlen.toNat ≤ DhcpMessage.chaddrSize) :
    ¬ InformReadable request config := by
  intro readable
  have accepted := readable.accepted
  rw [informReply_rejected within] at accepted
  cases accepted

/-- **No NACK and no INFORM reply can be read**: the parser rejects the options of both, and the
scan finds no type in those of a NACK. -/
theorem nack_inform_unreadable (request : DhcpMessage) (within : request.hlen.toNat ≤ DhcpMessage.chaddrSize)
    (config : DhcpConfig) :
    (¬ NackReadable request ∧ ¬ InformReadable request config) ∧
    ((parseOptionsToList [] 312#64).run (nackMessage request).options).1 = false ∧
    getDhcpMessageType (nackMessage request).options DhcpMessage.optionsSize = 0#8 ∧
    ((parseOptionsToList [] 312#64).run (informReply request config).options).1 = false := by
  refine ⟨⟨not_nackReadable within, not_informReadable within⟩, nackMessage_rejected within, ?_,
    informReply_rejected within⟩
  apply @run_typeScanFrom_zeros (nackMessage request).options DhcpMessage.optionsSize 154 4 rfl
  intro j behind
  rw [nackMessage_option within, List.getD_eq_getElem?_getD, List.getElem?_eq_none behind, Option.getD_none]

theorem nack_inform_unreadable_ethernet :
    (¬ NackReadable (ethernet macA 6#8 []).task.request ∧
      ¬ InformReadable (ethernet macA 6#8 []).task.request lanConfig) ∧
    ((parseOptionsToList [] 312#64).run (nackMessage (ethernet macA 6#8 []).task.request).options).1 = false ∧
    getDhcpMessageType (nackMessage (ethernet macA 6#8 []).task.request).options DhcpMessage.optionsSize = 0#8 ∧
    ((parseOptionsToList [] 312#64).run
      (informReply (ethernet macA 6#8 []).task.request lanConfig).options).1 = false :=
  nack_inform_unreadable (ethernet macA 6#8 []).task.request
    (by rw [ClientMessage.hlen_task]; decide : _ ≤ DhcpMessage.chaddrSize) lanConfig

/-- The INFORM reply and the NACK to an Ethernet client. -/
theorem nack_inform_rejected : (ethernet macA 8#8 []).task.request.hlen.toNat ≤ DhcpMessage.chaddrSize ∧
    ¬ NackReadable (ethernet macA 8#8 []).task.request ∧
    ¬ InformReadable (ethernet macA 8#8 []).task.request lanConfig := by
  have within : (ethernet macA 8#8 []).task.request.hlen.toNat ≤ DhcpMessage.chaddrSize := by
    rw [ClientMessage.hlen_task]
    decide
  exact ⟨within, not_nackReadable within, not_informReadable within⟩

end Decode

end DhcpServer
