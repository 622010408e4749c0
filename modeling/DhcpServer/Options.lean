import DhcpServer.Lib.Memory

/-!
# Option codes and message types (`options.h`)
-/

namespace DhcpServer
set_option autoImplicit false
open Lib

/-! The option codes the server writes or looks for; `endMark` is `END`. -/

namespace OptionCode

def subnetMask : Byte := 1#8
def router : Byte := 3#8
def domainNameServer : Byte := 6#8
def requestedIpAddress : Byte := 50#8
def ipAddressLeaseTime : Byte := 51#8
def dhcpMessageType : Byte := 53#8
def endMark : Byte := 255#8

end OptionCode

/-- `enum dhcp_msg_type`. -/
inductive DhcpMsgType where
  | discover | offer | request | decline | ack | nak | release | inform
deriving DecidableEq

def DhcpMsgType.code : DhcpMsgType → Byte
  | .discover => 1#8
  | .offer => 2#8
  | .request => 3#8
  | .decline => 4#8
  | .ack => 5#8
  | .nak => 6#8
  | .release => 7#8
  | .inform => 8#8

/-- `option_magic`. -/
def optionMagic : List Byte := [0x63#8, 0x82#8, 0x53#8, 0x63#8]

/-- Where the options start: behind the cookie, and each behind the value of the one before. -/
inductive OptionAt (options : Memory) : Nat → Prop where
  | first : OptionAt options 4
  | next {i : Nat} : OptionAt options i → options i ≠ OptionCode.endMark →
      OptionAt options (i + 2 + (options (i + 1)).toNat)

end DhcpServer
