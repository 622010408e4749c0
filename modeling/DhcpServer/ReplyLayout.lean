import DhcpServer.Reply

/-!
# Where the bytes of a reply come from

All replies are laid out by `buildReply`: a header made of the request's first bytes, zeros, the
option bytes, and over them the copy of `hlen` bytes at `chaddr`.
-/

namespace DhcpServer
set_option autoImplicit false
open Lib

/-- The replies, with the address an OFFER or an ACK is for. -/
inductive ReplyKind where
  | offer (ip : BitVec 32)
  | ack (address : BitVec 32)
  | inform
  | nack

namespace ReplyKind

/-- The reply as its handler builds it. The ACK is built from the configuration it has changed. -/
def message (request : DhcpMessage) (config : DhcpConfig) : ReplyKind → DhcpMessage
  | .offer ip => offerMessage request ip config
  | .ack address => ackMessage request address (ackConfig config)
  | .inform => informReply request config
  | .nack => nackMessage request

/-- The words and flags the handlers set. -/
def flags (request : DhcpMessage) : ReplyKind → List Byte
  | .offer _ => request.flags
  | _ => []

def yiaddr : ReplyKind → BitVec 32
  | .offer ip => htonl ip
  | .ack address => htonl address
  | _ => 0#32

def siaddr (config : DhcpConfig) : ReplyKind → BitVec 32
  | .offer _ => htonl config.router
  | .ack _ => htonl 0xC0A80101#32
  | _ => 0#32

/-- The option bytes its handler writes. -/
def optionBytes (config : DhcpConfig) : ReplyKind → List Byte
  | .offer _ => offerOptions config
  | .ack _ => ackOptions (ackConfig config)
  | .inform => informOptions config
  | .nack => nackOptions

theorem message_eq (request : DhcpMessage) (config : DhcpConfig) (kind : ReplyKind) :
    kind.message request config = buildReply request (kind.flags request) kind.yiaddr (kind.siaddr config)
      (kind.optionBytes config) := by
  cases kind <;> rfl

end ReplyKind

/-- A reply before its options are written and `chaddr` is copied. -/
def replyHeader (request : DhcpMessage) (flags : List Byte) (yiaddr siaddr : BitVec 32) : DhcpMessage :=
  Memory.zero
    |>.write 0 [bootReply, request.htype, request.hlen]
    |>.store32 4 request.xid
    |>.write 10 flags
    |>.store32 16 yiaddr
    |>.store32 20 siaddr

/-- Two bytes of flags at most: the request's in an OFFER, none in the other replies. -/
theorem flags_short (request : DhcpMessage) : request.flags.length ≤ 2 :=
  Nat.le_of_eq (Memory.slice_length request 10 2)

theorem noFlags : ([] : List Byte).length ≤ 2 := by decide

/-- The copy of `hlen` bytes to `chaddr` ends in front of the options. -/
def ClearOfOptions (request : DhcpMessage) : Prop :=
  DhcpMessage.chaddrOffset + request.hlen.toNat ≤ DhcpMessage.optionsOffset

theorem clearOfOptions_of_within {request : DhcpMessage} (within : request.hlen.toNat ≤ DhcpMessage.chaddrSize) :
    ClearOfOptions request := by
  simp only [ClearOfOptions, DhcpMessage.chaddrSize, DhcpMessage.chaddrOffset, DhcpMessage.optionsOffset] at within ⊢
  omega

theorem ReplyKind.flags_short (request : DhcpMessage) (kind : ReplyKind) : (kind.flags request).length ≤ 2 := by
  cases kind with
  | offer => exact DhcpServer.flags_short request
  | _ => exact noFlags

section Layout
variable {request : DhcpMessage} {flags options : List Byte} {yiaddr siaddr : BitVec 32} {i n : Nat}

theorem buildReply_eq : buildReply request flags yiaddr siaddr options =
    ((replyHeader request flags yiaddr siaddr).write DhcpMessage.optionsOffset options).write
      DhcpMessage.chaddrOffset (request.slice DhcpMessage.chaddrOffset request.hlen.toNat) := rfl

/-- The copy to `chaddr` brings the request's bytes, as many as `hlen` says. -/
theorem buildReply_copied (inside : i < request.hlen.toNat) :
    buildReply request flags yiaddr siaddr options (DhcpMessage.chaddrOffset + i) =
      request (DhcpMessage.chaddrOffset + i) := by
  have inside' : i < (request.slice DhcpMessage.chaddrOffset request.hlen.toNat).length := by
    rwa [Memory.slice_length]
  rw [buildReply_eq, Memory.write_inside _ _ _ inside']
  simp [Memory.slice]

/-- The rest of the reply is as it was before the copy. -/
theorem buildReply_uncopied
    (apart : i < DhcpMessage.chaddrOffset ∨ DhcpMessage.chaddrOffset + request.hlen.toNat ≤ i) :
    buildReply request flags yiaddr siaddr options i =
      (replyHeader request flags yiaddr siaddr).write DhcpMessage.optionsOffset options i := by
  rw [buildReply_eq]
  rcases apart with low | high
  · exact Memory.write_below _ _ _ low
  · exact Memory.write_above _ _ _ (by rwa [Memory.slice_length])

/-- The header ends in front of `giaddr`. -/
theorem replyHeader_above (short : flags.length ≤ 2) (above : 24 ≤ i) :
    replyHeader request flags yiaddr siaddr i = 0#8 := by
  rw [replyHeader, Memory.store32_apart _ _ _ (by omega), Memory.store32_apart _ _ _ (by omega),
    Memory.write_above _ _ _ (by omega), Memory.store32_apart _ _ _ (by omega),
    Memory.write_above _ _ _ (by simp only [List.length_cons, List.length_nil]; omega), Memory.zero_apply]

/-- Between `siaddr` and the options the reply is zero but for the copy. -/
theorem buildReply_zero (short : flags.length ≤ 2) (above : 24 ≤ i) (below : i < DhcpMessage.optionsOffset)
    (apart : i < DhcpMessage.chaddrOffset ∨ DhcpMessage.chaddrOffset + request.hlen.toNat ≤ i) :
    buildReply request flags yiaddr siaddr options i = 0#8 := by
  rw [buildReply_uncopied apart, Memory.write_below _ _ _ below, replyHeader_above short above]

/-- The options the copy does not reach: the bytes written, and zeros. -/
theorem buildReply_option (short : flags.length ≤ 2) (clear : ClearOfOptions request) :
    (buildReply request flags yiaddr siaddr options).options i = options.getD i 0#8 := by
  have apart : DhcpMessage.chaddrOffset + request.hlen.toNat ≤ DhcpMessage.optionsOffset + i :=
    Nat.le_trans clear (Nat.le_add_right _ _)
  have zero : replyHeader request flags yiaddr siaddr (DhcpMessage.optionsOffset + i) = 0#8 :=
    replyHeader_above short (Nat.le_trans (by decide) (Nat.le_add_right DhcpMessage.optionsOffset i))
  rw [DhcpMessage.options, Memory.shift_apply, buildReply_uncopied (Or.inr apart), Memory.write,
    if_pos (Nat.le_add_right _ _), zero, Nat.add_sub_cancel_left, List.getD_eq_getElem?_getD]

/-- The first three bytes. -/
theorem buildReply_first :
    (buildReply request flags yiaddr siaddr options).slice 0 3 = [bootReply, request.htype, request.hlen] := by
  have header : (replyHeader request flags yiaddr siaddr).slice 0 3 =
      (Memory.zero.write 0 [bootReply, request.htype, request.hlen]).slice 0 3 := by
    apply Memory.slice_congr
    intro k bound
    rw [replyHeader, Memory.store32_apart _ _ _ (by omega), Memory.store32_apart _ _ _ (by omega),
      Memory.write_below _ _ _ (by omega), Memory.store32_apart _ _ _ (by omega)]
  rw [buildReply_eq, Memory.slice_write_apart _ _ _ (Or.inl (by decide)),
    Memory.slice_write_apart _ _ _ (Or.inl (by decide)), header]
  exact Memory.slice_write_same Memory.zero 0 [bootReply, request.htype, request.hlen]

theorem buildReply_xid : (buildReply request flags yiaddr siaddr options).xid = request.xid := by
  unfold buildReply DhcpMessage.xid
  rw [Memory.load32_write_apart _ _ _ (Or.inl (by decide)),
    Memory.load32_write_apart _ _ _ (Or.inl (by decide)), Memory.store32,
    Memory.load32_write_apart _ _ _ (Or.inl (by decide)), Memory.store32,
    Memory.load32_write_apart _ _ _ (Or.inl (by decide)),
    Memory.load32_write_apart _ _ _ (Or.inl (by decide)), Memory.load32_store32]

theorem buildReply_siaddr : (buildReply request flags yiaddr siaddr options).siaddr = siaddr := by
  unfold buildReply DhcpMessage.siaddr
  rw [Memory.load32_write_apart _ _ _ (Or.inl (by decide)),
    Memory.load32_write_apart _ _ _ (Or.inl (by decide)), Memory.load32_store32]

theorem buildReply_chaddr : (buildReply request flags yiaddr siaddr options).slice
    DhcpMessage.chaddrOffset request.hlen.toNat = request.slice DhcpMessage.chaddrOffset request.hlen.toNat :=
  Memory.slice_congr fun _ inside => buildReply_copied inside

/-- A reply answers a request: it is a `BOOTREPLY` with the request's hardware address and
transaction, and nothing in `sname` and `file`. -/
structure Answers (request reply : DhcpMessage) : Prop where
  op : reply.op = bootReply
  htype : reply.htype = request.htype
  hlen : reply.hlen = request.hlen
  xid : reply.xid = request.xid
  chaddr : reply.slice DhcpMessage.chaddrOffset request.hlen.toNat =
    request.slice DhcpMessage.chaddrOffset request.hlen.toNat
  chaddrRest : ∀ i, request.hlen.toNat ≤ i → i < DhcpMessage.chaddrSize →
    reply (DhcpMessage.chaddrOffset + i) = 0#8
  sname : reply.sname = List.replicate 64 0#8
  file : reply.file = List.replicate 128 0#8

/-- **A reply to a request whose `hlen` is within `chaddr` answers it.** -/
theorem buildReply_answers (short : flags.length ≤ 2) (within : request.hlen.toNat ≤ DhcpMessage.chaddrSize) :
    Answers request (buildReply request flags yiaddr siaddr options) := by
  obtain ⟨op, htype, hlen⟩ := Memory.slice_three.mp (@buildReply_first request flags options yiaddr siaddr)
  have zero : ∀ i, DhcpMessage.chaddrOffset + request.hlen.toNat ≤ i → i < DhcpMessage.optionsOffset →
      buildReply request flags yiaddr siaddr options i = 0#8 := by
    intro i above below
    exact buildReply_zero short (Nat.le_trans (by decide) (Nat.le_of_add_right_le above)) below (Or.inr above)
  simp only [DhcpMessage.chaddrOffset, DhcpMessage.chaddrSize, DhcpMessage.optionsOffset] at within zero
  constructor
  · exact op
  · exact htype
  · exact hlen
  · exact buildReply_xid
  · exact buildReply_chaddr
  · intro i above below
    simp only [DhcpMessage.chaddrOffset, DhcpMessage.chaddrSize] at below ⊢
    exact zero _ (by omega) (by omega)
  · rw [DhcpMessage.sname, Memory.slice_eq_zeros, DhcpMessage.snameOffset]
    exact fun k bound => zero _ (by omega) (by omega)
  · rw [DhcpMessage.file, Memory.slice_eq_zeros, DhcpMessage.fileOffset]
    exact fun k bound => zero _ (by omega) (by omega)

end Layout

end DhcpServer
