import DhcpServer.Lib.HexText
import DhcpServer.Lib.NetworkOrder
import DhcpServer.Message
import DhcpServer.TypeScanBounds

/-!
# Printing a message (`print_dhcp_message`)

The handlers print what they receive and what they send. The printout is a `ReadProg` over the message, and
what it reads goes further than the fields: the type scan steps by lengths, `%s` reads up to a zero, and the
last loop reads 312 option bytes unless it meets the end mark.
-/

namespace DhcpServer
set_option autoImplicit false
open Lib

/-- A `%s` comes to its zero or to the end of all memory. -/
def addressSpace : Nat := 2 ^ 64

/-- Bytes as `%s` prints them. -/
def rawText (bs : List Byte) : List Char := bs.map fun b => Char.ofNat b.toNat

/-- `%02X:` byte after byte, with no colon behind the last one. -/
def macText (upper : Bool) : List Byte → List Char
  | [] => []
  | [b] => hexByte upper b
  | b :: c :: rest => hexByte upper b ++ ':' :: macText upper (c :: rest)

/-- The `switch` on the message type: what is printed in front of the address. -/
def titleText (messageType : Byte) : Option String :=
  match messageType.toNat with
  | 1 => some "DHCP DISCOVER received from client with MAC: "
  | 2 => some "DHCP OFFER sent to client with MAC: "
  | 3 => some "DHCP REQUEST received from client with MAC: "
  | 4 => some "DHCP DECLINE received from client with MAC: "
  | 5 => some "DHCP ACK sent to client with MAC: "
  | 6 => some "DHCP NACK sent to client with MAC: "
  | 7 => some "DHCP RELEASE received from client with MAC: "
  | 8 => some "DHCP INFORM received from client with MAC: "
  | _ => none

def titleLine (messageType : Byte) : ReadProg (List Char) :=
  match titleText messageType with
  | none => pure []
  | some title => do
    let mac ← .bytes DhcpMessage.chaddrOffset 6
    pure (title.toList ++ macText false mac.val ++ ['\n'])

/-- A line with a number. -/
def numberLine (name : String) (n : Nat) : List Char := name.toList ++ Nat.toDigits 10 n ++ ['\n']

/-- A line with an address, `inet_ntoa` of the stored word. -/
def addressLine (name : String) (word : BitVec 32) : List Char := name.toList ++ quad (ntohl word) ++ ['\n']

/-- The lines for the fields in front of `chaddr`. -/
def headerLines (msg : DhcpMessage) : List Char :=
  "Operation (op): ".toList ++ Nat.toDigits 10 msg.op.toNat ++
    (if msg.op = bootRequest then " (BOOTREQUEST)\n" else " (BOOTREPLY)\n").toList ++
  numberLine "Hardware type (htype): " msg.htype.toNat ++
  numberLine "MAC address length (hlen): " msg.hlen.toNat ++
  numberLine "Hops: " (msg 3).toNat ++
  "Transaction ID (xid): 0x".toList ++ hexText true (be32 (ntohl msg.xid)) ++ ['\n'] ++
  numberLine "Seconds elapsed (secs): " (networkValue (msg.slice 8 2)) ++
  "Flags: 0x".toList ++ hexText true msg.flags ++ ['\n'] ++
  addressLine "Client IP address (ciaddr): " msg.ciaddr ++
  addressLine "Your IP address (yiaddr): " msg.yiaddr ++
  addressLine "Server IP address (siaddr): " msg.siaddr ++
  addressLine "Gateway IP address (giaddr): " (msg.load32 24)

/-- The loop over `chaddr`: a colon stands behind every byte but the last one of `hlen`. -/
def chaddrText (hlen : Byte) (chaddr : List Byte) : List Char :=
  chaddr.zipIdx.flatMap fun x => hexByte true x.1 ++ if x.2 + 1 < hlen.toNat then [':'] else []

def optionLines (options : List Byte) : List Char :=
  options.zipIdx.flatMap fun x =>
    "  Option[".toList ++ Nat.toDigits 10 x.2 ++ "]: 0x".toList ++ hexByte true x.1 ++ ['\n']

/-- `print_dhcp_message`. -/
def printDhcpMessage : ReadProg (List Char) := do
  let messageType ← (typeScan DhcpMessage.optionsSize).based DhcpMessage.optionsOffset
  let title ← titleLine messageType
  let header ← .bytes 0 DhcpMessage.chaddrOffset
  let msg : DhcpMessage := Memory.zero.write 0 header.val
  let chaddr ← .bytes DhcpMessage.chaddrOffset (min msg.hlen.toNat DhcpMessage.chaddrSize)
  let sname ← .untilByte 0#8 addressSpace DhcpMessage.snameOffset
  let file ← .untilByte 0#8 addressSpace DhcpMessage.fileOffset
  let options ← .untilByte 0xFF#8 DhcpMessage.optionsSize DhcpMessage.optionsOffset
  pure ("\n\n\n\n\n========== DHCP Message ==========\n".toList ++ title ++
    numberLine "DHCP Message type: " messageType.toNat ++ headerLines msg ++
    "Client MAC address (chaddr): ".toList ++ chaddrText msg.hlen chaddr.val ++ ['\n'] ++
    "Server name (sname): ".toList ++ rawText sname ++ ['\n'] ++
    "Boot file name (file): ".toList ++ rawText file ++ ['\n'] ++
    "Options:\n".toList ++ optionLines options ++ "==================================\n".toList)

section Reads
variable {m : DhcpMessage} {bound j : Nat}

/-- The title line and the loop over `chaddr` read within the field. -/
theorem reads_titleLine (messageType : Byte) : ∀ j ∈ (titleLine messageType).reads m, j < DhcpMessage.snameOffset := by
  unfold titleLine
  split
  · exact fun _ => nofun
  · intro j read
    rw [ReadProg.reads_bind, ReadProg.reads_pure, List.append_nil, ReadProg.reads_bytes, List.mem_range'_1] at read
    simp only [DhcpMessage.chaddrOffset, DhcpMessage.snameOffset] at read ⊢
    omega

/-- What is read apart from the fields of fixed length. -/
theorem printDhcpMessage_below (behind : DhcpMessage.snameOffset ≤ bound) :
    (∀ j ∈ printDhcpMessage.reads m, j < bound) ↔
      (∀ j ∈ (typeScan DhcpMessage.optionsSize).reads m.options, DhcpMessage.optionsOffset + j < bound) ∧
      (∀ j ∈ (ReadProg.untilByte 0#8 addressSpace DhcpMessage.snameOffset).reads m, j < bound) ∧
      (∀ j ∈ (ReadProg.untilByte 0#8 addressSpace DhcpMessage.fileOffset).reads m, j < bound) ∧
      (∀ j ∈ (ReadProg.untilByte 0xFF#8 DhcpMessage.optionsSize DhcpMessage.optionsOffset).reads m, j < bound) := by
  have title (messageType : Byte) : ∀ j ∈ (titleLine messageType).reads m, j < bound :=
    fun j read => Nat.lt_of_lt_of_le (reads_titleLine messageType j read) behind
  have header : ∀ j ∈ List.range' 0 DhcpMessage.chaddrOffset, j < bound := by
    intro j read
    rw [List.mem_range'_1] at read
    simp only [DhcpMessage.chaddrOffset, DhcpMessage.snameOffset] at read behind
    omega
  have chaddr (hlen : Nat) :
      ∀ j ∈ List.range' DhcpMessage.chaddrOffset (min hlen DhcpMessage.chaddrSize), j < bound := by
    intro j read
    rw [List.mem_range'_1] at read
    simp only [DhcpMessage.chaddrOffset, DhcpMessage.chaddrSize, DhcpMessage.snameOffset] at read behind
    omega
  simp only [printDhcpMessage, ReadProg.reads_bind, ReadProg.reads_pure, ReadProg.reads_based, ReadProg.reads_bytes,
    List.append_nil, List.forall_mem_append, List.forall_mem_map]
  constructor
  · rintro ⟨scan, -, -, -, sname, file, options⟩
    exact ⟨scan, sname, file, options⟩
  · rintro ⟨scan, sname, file, options⟩
    exact ⟨scan, title _, header, chaddr _, sname, file, options⟩

/-- **Where a printout reads**: it stays below a bound when the type scan does, when `file` meets a zero there,
and when all options or the end mark lie there. -/
theorem printDhcpMessage_below_iff (behind : DhcpMessage.optionsOffset ≤ bound) (near : bound ≤ addressSpace) :
    (∀ j ∈ printDhcpMessage.reads m, j < bound) ↔
      (∀ j ∈ (typeScan DhcpMessage.optionsSize).reads m.options, DhcpMessage.optionsOffset + j < bound) ∧
      (∃ i, DhcpMessage.fileOffset ≤ i ∧ i < bound ∧ m i = 0#8) ∧
      (DhcpMessage.size ≤ bound ∨ ∃ i, DhcpMessage.optionsOffset ≤ i ∧ i < bound ∧ m i = 0xFF#8) := by
  have sname : DhcpMessage.snameOffset ≤ bound ∧ bound < DhcpMessage.snameOffset + addressSpace := by
    simp only [DhcpMessage.snameOffset, DhcpMessage.optionsOffset] at behind ⊢
    omega
  have file : DhcpMessage.fileOffset ≤ bound ∧ bound < DhcpMessage.fileOffset + addressSpace := by
    simp only [DhcpMessage.fileOffset, DhcpMessage.optionsOffset] at behind ⊢
    omega
  have dump : (∀ j ∈ (ReadProg.untilByte 0xFF#8 DhcpMessage.optionsSize DhcpMessage.optionsOffset).reads m, j < bound) ↔
      DhcpMessage.size ≤ bound ∨ ∃ i, DhcpMessage.optionsOffset ≤ i ∧ i < bound ∧ m i = 0xFF#8 := by
    by_cases whole : DhcpMessage.size ≤ bound
    · refine iff_of_true (fun j read => ?_) (Or.inl whole)
      obtain ⟨-, high, -⟩ := ReadProg.mem_reads_untilByte.mp read
      exact Nat.lt_of_lt_of_le high whole
    · rw [or_iff_right whole]
      exact ReadProg.reads_untilByte_below behind (Nat.lt_of_not_le whole)
  rw [printDhcpMessage_below sname.1, ReadProg.reads_untilByte_below sname.1 sname.2,
    ReadProg.reads_untilByte_below file.1 file.2, dump]
  constructor
  · rintro ⟨scan, -, zero, mark⟩
    exact ⟨scan, zero, mark⟩
  · rintro ⟨scan, ⟨i, low, high, zero⟩, mark⟩
    exact ⟨scan, ⟨i, Nat.le_trans (by decide) low, high, zero⟩, ⟨i, low, high, zero⟩, mark⟩

end Reads

end DhcpServer
