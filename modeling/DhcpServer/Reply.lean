import DhcpServer.Options
import DhcpServer.State

/-!
# The replies (`send_DHCP_Offer`, `send_DHCP_Ack`, `handle_DHCP_Inform_Reply`, `send_DHCP_NACK`)

All four zero a message, fill in the header, write their option bytes at fixed positions and
copy `hlen` bytes to `chaddr` last. The copy is by length alone, so a large `hlen` overwrites
`sname`, `file` and the first option bytes.
-/

namespace DhcpServer
set_option autoImplicit false
open Lib

/-- A message and the address `sendto` is given. -/
structure Reply where
  message : DhcpMessage
  dest : SockAddrIn

/-- The bytes that go out. -/
def Reply.datagram (r : Reply) : List Byte := r.message.slice 0 DhcpMessage.size

/-- The client address as the OFFER and ACK paths overwrite it: `AF_INET`, `htons(68)` and
`inet_addr("192.168.1.255")`. -/
def broadcastAddr : SockAddrIn where
  sinFamily := 2#16
  sinPort := 0x4400#16
  sinAddr := htonl 0xC0A801FF#32

/-- The four octets `(uint8_t)((v >> k) & 0xFF)` of a `uint32_t`. -/
def wordOctets (v : BitVec 32) : List Byte := [24, 16, 8, 0].map fun k => ((v >>> k) &&& 0xFF#32).setWidth 8

/-- The same of an `int`, whose shifts are arithmetic. -/
def intOctets (v : BitVec 32) : List Byte :=
  [24, 16, 8, 0].map fun k => (v.sshiftRight k &&& 0xFF#32).setWidth 8

/-- The part the four replies share. `yiaddr` and `siaddr` are the stored words; the fields a
reply does not set keep the zero of `memset`. -/
def buildReply (request : DhcpMessage) (flags : List Byte) (yiaddr siaddr : BitVec 32)
    (options : List Byte) : DhcpMessage :=
  Memory.zero
    |>.write 0 [bootReply, request.htype, request.hlen]
    |>.store32 4 request.xid
    |>.write 10 flags
    |>.store32 16 yiaddr
    |>.store32 20 siaddr
    |>.write DhcpMessage.optionsOffset options
    |>.write DhcpMessage.chaddrOffset (request.slice DhcpMessage.chaddrOffset request.hlen.toNat)

def offerOptions (config : DhcpConfig) : List Byte :=
  optionMagic ++ [OptionCode.dhcpMessageType, 1#8, DhcpMsgType.offer.code] ++
    [OptionCode.ipAddressLeaseTime, 4#8] ++ intOctets config.maxLeaseTime ++ [OptionCode.endMark]

/-- The OFFER of `send_DHCP_Offer`. -/
def offerMessage (request : DhcpMessage) (offeredIp : BitVec 32) (config : DhcpConfig) : DhcpMessage :=
  buildReply request request.flags (htonl offeredIp) (htonl config.router) (offerOptions config)

/-- `send_DHCP_Ack` writes its netmask and DNS server into the shared configuration. -/
def ackConfig (config : DhcpConfig) : DhcpConfig :=
  { config with subnet := 0xFFFFFF00#32, dns := config.dns.set 0 0x08080808#32 }

theorem ackConfig_ackConfig (config : DhcpConfig) : ackConfig (ackConfig config) = ackConfig config := by
  simp [ackConfig]

def ackOptions (config : DhcpConfig) : List Byte :=
  optionMagic ++ [OptionCode.dhcpMessageType, 1#8, DhcpMsgType.ack.code] ++
    [OptionCode.ipAddressLeaseTime, 4#8] ++ intOctets config.maxLeaseTime ++
    [OptionCode.subnetMask, 4#8] ++ wordOctets config.subnet ++
    [OptionCode.router, 4#8] ++ wordOctets config.router ++
    [OptionCode.domainNameServer, 4#8] ++ wordOctets config.dns[0] ++ [OptionCode.endMark]

/-- The ACK of `send_DHCP_Ack`, from the configuration it has just changed. -/
def ackMessage (request : DhcpMessage) (address : BitVec 32) (config : DhcpConfig) : DhcpMessage :=
  buildReply request [] (htonl address) (htonl 0xC0A80101#32) (ackOptions config)

/-- The option bytes of `handle_DHCP_Inform_Reply`: no cookie, and the end mark at position 25. -/
def informOptions (config : DhcpConfig) : List Byte :=
  [OptionCode.dhcpMessageType, 8#8, OptionCode.domainNameServer, 4#8] ++ wordOctets config.dns[0] ++
    List.replicate 17 0#8 ++ [0xFF#8]

def informReply (request : DhcpMessage) (config : DhcpConfig) : DhcpMessage :=
  buildReply request [] 0#32 0#32 (informOptions config)

def nackOptions : List Byte := [OptionCode.dhcpMessageType, 1#8, 6#8, 0xFF#8]

def nackMessage (request : DhcpMessage) : DhcpMessage := buildReply request [] 0#32 0#32 nackOptions

/-- No later write reaches `yiaddr`. -/
@[simp] theorem buildReply_yiaddr (request : DhcpMessage) (flags : List Byte) (yiaddr siaddr : BitVec 32)
    (options : List Byte) : (buildReply request flags yiaddr siaddr options).yiaddr = yiaddr := by
  unfold buildReply DhcpMessage.yiaddr
  rw [Memory.load32_write_apart _ _ _ (Or.inl (by decide)),
    Memory.load32_write_apart _ _ _ (Or.inl (by decide)), Memory.store32,
    Memory.load32_write_apart _ _ _ (Or.inl (by decide)), Memory.load32_store32]

@[simp] theorem offerMessage_yiaddr (request : DhcpMessage) (ip : BitVec 32) (config : DhcpConfig) :
    ntohl (offerMessage request ip config).yiaddr = ip := by
  rw [offerMessage, buildReply_yiaddr, ntohl_htonl]

@[simp] theorem ackMessage_yiaddr (request : DhcpMessage) (address : BitVec 32) (config : DhcpConfig) :
    ntohl (ackMessage request address config).yiaddr = address := by
  rw [ackMessage, buildReply_yiaddr, ntohl_htonl]

end DhcpServer
