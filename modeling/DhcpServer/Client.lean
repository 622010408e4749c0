import DhcpServer.Server

/-!
# Messages as clients send them

`ClientMessage.task` is the task `main` makes of a client's 512-byte datagram: the header fields
a client sets, the cookie, option 53 first and then its other options. The server reads back
what the client wrote.
-/

namespace DhcpServer
set_option autoImplicit false
open Lib

/-- What a client puts into a message. The addresses are in host order. -/
structure ClientMessage where
  messageType : Byte
  xid : BitVec 32
  hlen : Byte
  chaddr : List Byte
  ciaddr : BitVec 32
  yiaddr : BitVec 32
  options : List Byte

namespace ClientMessage

def encode (c : ClientMessage) : DhcpMessage :=
  Memory.zero
    |>.write 0 [bootRequest, 1#8, c.hlen]
    |>.store32 4 c.xid
    |>.store32 12 (htonl c.ciaddr)
    |>.store32 16 (htonl c.yiaddr)
    |>.write DhcpMessage.chaddrOffset c.chaddr
    |>.write DhcpMessage.optionsOffset
      (optionMagic ++ [OptionCode.dhcpMessageType, 1#8, c.messageType] ++ c.options ++ [OptionCode.endMark])

/-- The datagram in its task, followed by `client_len = 16` and `recv_bytes = 512`. -/
def task (c : ClientMessage) : ClientTask where
  buffer := fun i => c.encode i
  after := (Memory.zero.write 0 [16#8]).write 8 [0#8, 2#8]

/-- A turn in which the C library's calls succeed. -/
def turn (c : ClientMessage) : Turn where
  task := c.task
  now := 0
  mallocOk := true
  sendOk := true

section ReadBack
variable (c : ClientMessage)

theorem request_task {i : Nat} (inside : i < bufferSize) : c.task.request i = c.encode i :=
  ClientTask.request_inside _ inside

theorem slice_task {a n : Nat} (inside : a + n ≤ bufferSize) :
    c.task.request.slice a n = c.encode.slice a n := by
  apply List.map_congr_left
  intro k member
  have bound := List.mem_range.mp member
  exact c.request_task (by omega)

theorem op_task : c.task.request.op = bootRequest := by
  rw [DhcpMessage.op, c.request_task (by decide)]
  simp [encode, Memory.write, Memory.store32, DhcpMessage.chaddrOffset, DhcpMessage.optionsOffset]

theorem hlen_task : c.task.request.hlen = c.hlen := by
  rw [DhcpMessage.hlen, c.request_task (by decide)]
  simp [encode, Memory.write, Memory.store32, DhcpMessage.chaddrOffset, DhcpMessage.optionsOffset]

theorem xid_task : c.task.request.xid = c.xid := by
  rw [DhcpMessage.xid, Memory.load32_congr (c.slice_task (by decide)), encode]
  rw [Memory.load32_write_apart _ _ _ (Or.inl (by decide)),
    Memory.load32_write_apart _ _ _ (Or.inl (by decide)), Memory.store32,
    Memory.load32_write_apart _ _ _ (Or.inl (by decide)), Memory.store32,
    Memory.load32_write_apart _ _ _ (Or.inl (by decide)), Memory.load32_store32]

theorem slice_options_task (front bs back : List Byte) (written : optionMagic ++
    [OptionCode.dhcpMessageType, 1#8, c.messageType] ++ c.options ++ [OptionCode.endMark] = front ++ bs ++ back)
    (fits : front.length + bs.length ≤ DhcpMessage.dhcpOptionsMaxLen) :
    c.task.request.options.slice front.length bs.length = bs := by
  have inside : DhcpMessage.optionsOffset + front.length + bs.length ≤ bufferSize := by
    simp only [DhcpMessage.dhcpOptionsMaxLen, DhcpMessage.optionsOffset, bufferSize] at fits ⊢
    omega
  rw [DhcpMessage.options, Memory.shift_slice, c.slice_task inside, encode, written]
  exact Memory.slice_write_middle _ _ front bs back

/-- The type is the option the scan comes to first. -/
theorem typeOption_task : c.task.request.options 4 = OptionCode.dhcpMessageType ∧
    c.task.request.options 5 = 1#8 ∧ c.task.request.options 6 = c.messageType := by
  apply Memory.slice_three.mp
  apply c.slice_options_task optionMagic [OptionCode.dhcpMessageType, 1#8, c.messageType]
    (c.options ++ [OptionCode.endMark])
  · simp only [List.append_assoc]
  · exact (by decide : 4 + 3 ≤ DhcpMessage.dhcpOptionsMaxLen)

theorem messageType_task :
    getDhcpMessageType c.task.request.options DhcpMessage.optionsSize = c.messageType := by
  obtain ⟨code, len, value⟩ := c.typeOption_task
  rw [getDhcpMessageType, typeScan, typeScanFrom_eq, if_pos (by decide)]
  simp [code, len, value, OptionCode.endMark, OptionCode.dhcpMessageType]

/-- Behind the type come the client's other options. -/
theorem optionAt_task : OptionAt c.task.request.options 7 := by
  obtain ⟨code, len, -⟩ := c.typeOption_task
  have next : OptionAt c.task.request.options (4 + 2 + (c.task.request.options 5).toNat) :=
    .next .first (by rw [code]; decide)
  rwa [len] at next

theorem recvBytes_task : c.task.recvBytes = 512 := by
  simp [ClientTask.recvBytes, task, Memory.load32, Memory.write]

/-- **A client's message reaches the handler of its type.** -/
theorem dispatch_task (xid : c.xid ≠ 0#32) : dispatch c.task = switchType c.messageType := by
  rw [dispatch, if_neg (by rw [recvBytes_task]; decide)]
  simp only [op_task, xid_task, messageType_task, if_true, xid, ne_eq, not_false_eq_true]

end ReadBack

end ClientMessage

/-! ## The network of `dhcp_config_file.txt` and the clients of `logfile.txt` -/

def lanPool : IpPoolInd := .ofRange 0xC0A8010F#32 0xC0A80114#32

def lanConfig : DhcpConfig where
  ipPoolStart := 0xC0A8010F#32
  ipPoolEnd := 0xC0A80114#32
  subnet := 0xC0A80100#32
  netmask := 0xFFFFFF00#32
  router := 0xC0A80101#32
  dns := #v[0x08080808#32, 0x08080404#32]
  defaultLeaseTime := 600#32
  maxLeaseTime := 7200#32

def macA : List Byte := [0x08#8, 0x00#8, 0x27#8, 0x57#8, 0x9D#8, 0x2F#8]
def macB : List Byte := [0x08#8, 0x00#8, 0x27#8, 0x42#8, 0xCD#8, 0x45#8]

/-- A message of an Ethernet client. -/
def ethernet (mac : List Byte) (messageType : Byte) (options : List Byte) : ClientMessage where
  messageType := messageType
  xid := 0xC0754D4C#32
  hlen := 6#8
  chaddr := mac
  ciaddr := 0#32
  yiaddr := 0#32
  options := options

theorem dispatch_ethernet (mac : List Byte) (messageType : Byte) (options : List Byte) :
    dispatch (ethernet mac messageType options).task = switchType messageType :=
  (ethernet mac messageType options).dispatch_task (show 0xC0754D4C#32 ≠ 0#32 by decide)

def discover (mac : List Byte) : ClientMessage := ethernet mac 1#8 []

/-- A REQUEST for the address a client selected. -/
def requestFor (mac : List Byte) (a : BitVec 32) : ClientMessage :=
  ethernet mac 3#8 ([OptionCode.requestedIpAddress, 4#8] ++ be32 a)

theorem dispatch_requestFor (mac : List Byte) (a : BitVec 32) : dispatch (requestFor mac a).task = .ack :=
  dispatch_ethernet mac 3#8 _

/-- The message carries a Requested-IP-Address option for `a`. -/
def CarriesAddress (request : DhcpMessage) (a : BitVec 32) : Prop :=
  ∃ i, OptionAt request.options i ∧
    request.options.slice i 6 = OptionCode.requestedIpAddress :: 4#8 :: be32 a

theorem requestFor_carries (mac : List Byte) (a : BitVec 32) :
    CarriesAddress (requestFor mac a).task.request a := by
  refine ⟨7, (requestFor mac a).optionAt_task, ?_⟩
  exact (requestFor mac a).slice_options_task (optionMagic ++ [OptionCode.dhcpMessageType, 1#8, 3#8])
    (OptionCode.requestedIpAddress :: 4#8 :: be32 a) [OptionCode.endMark] rfl
    (by decide : 7 + 6 ≤ DhcpMessage.dhcpOptionsMaxLen)

def declineOf (mac : List Byte) (a : BitVec 32) : ClientMessage := { ethernet mac 5#8 [] with yiaddr := a }

def releaseOf (mac : List Byte) (a : BitVec 32) : ClientMessage := { ethernet mac 7#8 [] with ciaddr := a }

end DhcpServer
