import DhcpServer.Client
import DhcpServer.ReplyLayout
import DhcpServer.Step

/-!
# What `hlen` lets a client write into a reply

The copy to `chaddr` is as long as the request says. Up to sixteen bytes it stays in the field; a
seventeenth is the first byte of `sname`. The address that an OFFER or an ACK hands out comes from the
server's state and belongs to the kind of the reply, so it stays while the request varies.
-/

namespace DhcpServer
set_option autoImplicit false
open Lib

/-- **Every reply is of one of the kinds**, made of the request and the configuration as it was. -/
theorem reply_kind {s t : Server} {turn : Turn} {action : Action} {reply : Reply}
    (stepped : serve s turn = some (t, action)) (replies : action.reply = some reply) :
    ∃ kind : ReplyKind, reply.message = kind.message turn.request s.config ∧
      (kind = .inform ↔ dispatch turn.task = .inform) := by
  cases served_of_serve stepped with
  | @offered ip _ called =>
    cases replies
    exact ⟨.offer ip, rfl, iff_of_false nofun (by rw [called]; decide)⟩
  | @acked b called =>
    cases replies
    exact ⟨.ack (s.bindings.get b).address, rfl, iff_of_false nofun (by rw [called]; decide)⟩
  | informed called =>
    cases replies
    exact ⟨.inform, rfl, iff_of_true rfl called⟩
  | nacked called =>
    cases replies
    exact ⟨.nack, rfl, iff_of_false nofun (by rw [called]; decide)⟩
  | _ => cases replies

/-- The requests agree in front of `chaddr`, so also on `hlen`. -/
def SameHeader (request request' : DhcpMessage) : Prop :=
  request'.slice 0 DhcpMessage.chaddrOffset = request.slice 0 DhcpMessage.chaddrOffset

/-- The field `chaddr`. -/
def InChaddr (i : Nat) : Prop :=
  DhcpMessage.chaddrOffset ≤ i ∧ i < DhcpMessage.chaddrOffset + DhcpMessage.chaddrSize

/-- Outside `chaddr` the reply is the same whatever stands in the request from `chaddr` on. -/
def Independent (kind : ReplyKind) (config : DhcpConfig) (request : DhcpMessage) : Prop :=
  ∀ request', SameHeader request request' → ∀ i, i < DhcpMessage.size → ¬ InChaddr i →
    kind.message request' config i = kind.message request config i

/-- Whatever stands in the request from `chaddr` on, the reply has zeros in `sname` and `file` and
the option bytes of its kind and configuration. -/
def Uncorrupted (kind : ReplyKind) (config : DhcpConfig) (request : DhcpMessage) : Prop :=
  ∀ request', SameHeader request request' →
    (kind.message request' config).sname = List.replicate 64 0#8 ∧
    (kind.message request' config).file = List.replicate 128 0#8 ∧
    ∀ i, i < DhcpMessage.optionsSize →
      (kind.message request' config).options i = (kind.optionBytes config).getD i 0#8

section Overrun
variable {kind : ReplyKind} {config : DhcpConfig} {request request' : DhcpMessage}

theorem SameHeader.hlen (same : SameHeader request request') : request'.hlen = request.hlen :=
  Memory.byte_of_slice_eq same (by decide : 2 < 28)

/-- The header of a reply is made of the request's first bytes. -/
theorem SameHeader.replyHeader (same : SameHeader request request') (kind : ReplyKind) (yiaddr siaddr : BitVec 32) :
    replyHeader request' (kind.flags request') yiaddr siaddr =
      replyHeader request (kind.flags request) yiaddr siaddr := by
  have htype : request'.htype = request.htype := Memory.byte_of_slice_eq same (by decide : 1 < 28)
  have xid : request'.xid = request.xid :=
    Memory.load32_congr (Memory.slice_within same (Nat.zero_le 4) (by decide))
  have flags : kind.flags request' = kind.flags request := by
    cases kind with
    | offer => exact Memory.slice_within same (Nat.zero_le 10) (by decide)
    | _ => rfl
  rw [DhcpServer.replyHeader, DhcpServer.replyHeader, htype, same.hlen, xid, flags]

/-- The copy brings the request's seventeenth byte to `sname`. -/
theorem message_sname (beyond : DhcpMessage.chaddrSize < request.hlen.toNat) :
    kind.message request config DhcpMessage.snameOffset = request DhcpMessage.snameOffset := by
  rw [ReplyKind.message_eq]
  exact buildReply_copied beyond

theorem sameHeader_write (b : Byte) : SameHeader request (request.write DhcpMessage.snameOffset [b]) :=
  Memory.slice_write_apart _ _ _ (Or.inl (by decide))

theorem write_sname (b : Byte) : request.write DhcpMessage.snameOffset [b] DhcpMessage.snameOffset = b :=
  Memory.write_inside request DhcpMessage.snameOffset [b] (show 0 < 1 by decide)

theorem independent_iff : Independent kind config request ↔ request.hlen.toNat ≤ DhcpMessage.chaddrSize := by
  constructor
  · intro independent
    by_contra beyond
    have beyond := Nat.lt_of_not_le beyond
    have same := @sameHeader_write request (request DhcpMessage.snameOffset + 1#8)
    have alike := independent _ same DhcpMessage.snameOffset (by decide) fun inside => absurd inside.2 (by decide)
    rw [message_sname (by rwa [same.hlen]), message_sname beyond, write_sname] at alike
    bv_omega
  · intro within request' same i _ outside
    have apart : i < DhcpMessage.chaddrOffset ∨ DhcpMessage.chaddrOffset + request.hlen.toNat ≤ i := by
      unfold InChaddr at outside
      omega
    rw [ReplyKind.message_eq, ReplyKind.message_eq, buildReply_uncopied (by rwa [same.hlen]),
      buildReply_uncopied apart, same.replyHeader]

theorem uncorrupted_iff : Uncorrupted kind config request ↔ request.hlen.toNat ≤ DhcpMessage.chaddrSize := by
  constructor
  · intro uncorrupted
    by_contra beyond
    have beyond := Nat.lt_of_not_le beyond
    have same := @sameHeader_write request 1#8
    obtain ⟨sname, -⟩ := uncorrupted _ same
    have zero := Memory.slice_eq_zeros.mp sname 0 (by decide)
    rw [Nat.add_zero, message_sname (by rwa [same.hlen]), write_sname] at zero
    cases zero
  · intro within request' same
    rw [← same.hlen] at within
    rw [ReplyKind.message_eq]
    have answers := @buildReply_answers request' (kind.flags request') (kind.optionBytes config) kind.yiaddr
      (kind.siaddr config) (kind.flags_short request') within
    refine ⟨answers.sname, answers.file, fun i _ => ?_⟩
    exact buildReply_option (kind.flags_short request') (clearOfOptions_of_within within)

/-- **When `hlen` cannot corrupt a reply**: exactly when it is within `chaddr`, for every request and
every kind of reply, whatever address an OFFER or an ACK is for. -/
theorem hlen_harmless_iff (kind : ReplyKind) (config : DhcpConfig) (request : DhcpMessage) :
    (Independent kind config request ∧ Uncorrupted kind config request ↔
      request.hlen.toNat ≤ DhcpMessage.chaddrSize) ∧
    (Independent kind config request ↔ request.hlen.toNat ≤ DhcpMessage.chaddrSize) ∧
    (Uncorrupted kind config request ↔ request.hlen.toNat ≤ DhcpMessage.chaddrSize) := by
  refine ⟨?_, independent_iff, uncorrupted_iff⟩
  rw [independent_iff, uncorrupted_iff, and_self]

/-- Two DISCOVERs with `hlen` 17 that differ in the byte behind `chaddr` only: so do their OFFERs. -/
theorem hlen_seventeen : ∃ request request' : DhcpMessage, SameHeader request request' ∧ request.hlen = 17#8 ∧
    offerMessage request 0xC0A80110#32 lanConfig 44 = 0#8 ∧
    offerMessage request' 0xC0A80110#32 lanConfig 44 = 1#8 ∧
    ¬ Independent (.offer 0xC0A80110#32) lanConfig request ∧
    ¬ Uncorrupted (.offer 0xC0A80110#32) lanConfig request := by
  have seventeen : DhcpMessage.hlen (Memory.zero.write 0 [bootRequest, 1#8, 17#8]) = 17#8 := by decide
  refine ⟨Memory.zero.write 0 [bootRequest, 1#8, 17#8], (Memory.zero.write 0 [bootRequest, 1#8, 17#8]).write 44 [1#8],
    sameHeader_write 1#8, seventeen, by decide, by decide, ?_, ?_⟩
  · rw [independent_iff, seventeen]
    decide
  · rw [uncorrupted_iff, seventeen]
    decide

end Overrun

end DhcpServer
