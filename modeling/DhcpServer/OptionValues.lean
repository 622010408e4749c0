import DhcpServer.Lib.Tokens
import DhcpServer.OptionList

/-!
# Option values in text (`parse_byte` to `parse_ip_list`, `dhcp_option_info`, `parse_option`)

A C string is the list of its characters in front of the NUL. A parser yields the bytes it stores, and
returns their number; no bytes are a parser that failed. Whether they have room in the memory it allocates
is another matter (`OptionParser.InsideAllocation`), and what is said here of `parse_ip_list` and of
`parse_option` holds where they have. `parse_short_list` declares its two pointers twice, which is read as
one declaration.
-/

namespace DhcpServer
set_option autoImplicit false
open Lib

/-- The bytes of a `uint16_t` in host order, lowest first. -/
def le16 (v : BitVec 16) : List Byte := [v.extractLsb' 0 8, v.extractLsb' 8 8]

/-- The delimiters of the first `strtok` call of a list parser, and of the later ones. -/
def firstDelims : List Char := [',', ' ']

def laterDelims : List Char := [' ']

def parseByte (s : List Char) : List Byte := [BitVec.ofInt 8 (strtolAuto s)]

def parseByteList (s : List Char) : List Byte :=
  (strtokAll firstDelims laterDelims s).map fun s3 => BitVec.ofInt 8 (strtolAuto s3)

/-- The number goes out in host order. -/
def parseShort (s : List Char) : List Byte := le16 (BitVec.ofInt 16 (strtolAuto s))

def parseShortList (s : List Char) : List Byte :=
  (strtokAll firstDelims laterDelims s).flatMap fun s3 => le16 (BitVec.ofInt 16 (strtolAuto s3))

def parseLong (s : List Char) : List Byte := le32 (BitVec.ofInt 32 (strtolAuto s))

def parseString (s : List Char) : List Byte := s.map fun c => BitVec.ofNat 8 c.toNat

/-- `inet_aton` leaves the address in network order. -/
def parseIp (s : List Char) : List Byte :=
  match inetAton s with
  | none => []
  | some ip => be32 ip

/-- The first token that is no address makes the parser fail. The bytes can be more than it allocates. -/
def parseIpList (s : List Char) : List Byte :=
  match (strtokAll firstDelims laterDelims s).mapM inetAton with
  | none => []
  | some ips => ips.flatMap be32

/-- The parsers of the table. -/
inductive OptionParser where
  | byte | byteList | short | shortList | long | string | ip | ipList
deriving DecidableEq

def OptionParser.parse : OptionParser → List Char → List Byte
  | .byte => parseByte
  | .byteList => parseByteList
  | .short => parseShort
  | .shortList => parseShortList
  | .long => parseLong
  | .string => parseString
  | .ip => parseIp
  | .ipList => parseIpList

/-- An initializer of `dhcp_option_info`. -/
structure OptionInfo where
  id : Nat
  name : String
  f : Option OptionParser
deriving DecidableEq

/-- The initializers in the order of the source. In `options.h` two names stand for 4. -/
def optionInfos : List OptionInfo := [
  ⟨0, "PAD", none⟩,
  ⟨255, "END", none⟩,
  ⟨1, "SUBNET_MASK", some .ip⟩,
  ⟨2, "TIME_OFFSET", some .long⟩,
  ⟨3, "ROUTER", some .ipList⟩,
  ⟨4, "TIME_SERVER", some .ipList⟩,
  ⟨5, "NAME_SERVER", some .ipList⟩,
  ⟨6, "DOMAIN_NAME_SERVER", some .ipList⟩,
  ⟨7, "LOG_SERVER", some .ipList⟩,
  ⟨8, "COOKIE_SERVER", some .ipList⟩,
  ⟨9, "LPR_SERVER", some .ipList⟩,
  ⟨10, "IMPRESS_SERVER", some .ipList⟩,
  ⟨11, "RESOURCE_LOCATION_SERVER", some .ipList⟩,
  ⟨12, "HOST_NAME", some .string⟩,
  ⟨13, "BOOT_FILE_SIZE", some .short⟩,
  ⟨14, "MERIT_DUMP_FILE", some .string⟩,
  ⟨15, "DOMAIN_NAME", some .string⟩,
  ⟨16, "SWAP_SERVER", some .ip⟩,
  ⟨17, "ROOT_PATH", some .string⟩,
  ⟨18, "EXTENSIONS_PATH", some .string⟩,
  ⟨19, "IP_FORWARDING", some .byte⟩,
  ⟨20, "NON_LOCAL_SOURCE_ROUTING", some .byte⟩,
  ⟨21, "POLICY_FILTER", some .ipList⟩,
  ⟨22, "MAXIMUM_DATAGRAM_REASSEMBLY_SIZE", some .short⟩,
  ⟨23, "DEFAULT_IP_TIME_TO_LIVE", some .byte⟩,
  ⟨24, "PATH_MTU_AGING_TIMEOUT", some .long⟩,
  ⟨25, "PATH_MTU_PLATEAU_TABLE", some .shortList⟩,
  ⟨26, "INTERFACE_MTU", some .short⟩,
  ⟨27, "ALL_SUBNETS_ARE_LOCAL", some .byte⟩,
  ⟨28, "BROADCAST_ADDRESS", some .ip⟩,
  ⟨29, "PERFORM_MASK_DISCOVERY", some .byte⟩,
  ⟨30, "MASK_SUPPLIER", some .byte⟩,
  ⟨31, "PERFORM_ROUTER_DISCOVERY", some .byte⟩,
  ⟨32, "ROUTER_SOLICITATION_ADDRESS", some .ip⟩,
  ⟨33, "STATIC_ROUTE", some .ipList⟩,
  ⟨34, "TRAILER_ENCAPSULATION", some .byte⟩,
  ⟨35, "ARP_CACHE_TIMEOUT", some .long⟩,
  ⟨36, "ETHERNET_ENCAPSULATION", some .byte⟩,
  ⟨37, "TCP_DEFAULT_TTL", some .byte⟩,
  ⟨38, "TCP_KEEPALIVE_INTERVAL", some .long⟩,
  ⟨39, "TCP_KEEPALIVE_GARBAGE", some .byte⟩,
  ⟨40, "NETWORK_INFORMATION_SERVICE_DOMAIN", some .string⟩,
  ⟨41, "NETWORK_INFORMATION_SERVERS", some .ipList⟩,
  ⟨42, "NETWORK_TIME_PROTOCOL_SERVERS", some .ipList⟩,
  ⟨43, "VENDOR_SPECIFIC_INFORMATION", some .byteList⟩,
  ⟨44, "NETBIOS_OVER_TCP_IP_NAME_SERVER", some .ipList⟩,
  ⟨4, "NETBIOS_OVER_TCP_IP_DATAGRAM_DISTRIBUTION_SERVER", some .ipList⟩,
  ⟨46, "NETBIOS_OVER_TCP_IP_NODE_TYPE", some .byte⟩,
  ⟨47, "NETBIOS_OVER_TCP_IP_SCOPE", some .string⟩,
  ⟨48, "X_WINDOW_SYSTEM_FONT_SERVER", some .ipList⟩,
  ⟨49, "X_WINDOW_SYSTEM_DISPLAY_MANAGER", some .ipList⟩,
  ⟨64, "NETWORK_INFORMATION_SERVICE_PLUS_DOMAIN", some .string⟩,
  ⟨65, "NETWORK_INFORMATION_SERVICE_PLUS_SERVERS", some .ipList⟩,
  ⟨68, "MOBILE_IP_HOME_AGENT", some .ipList⟩,
  ⟨69, "SMTP_SERVER", some .ipList⟩,
  ⟨70, "POP3_SERVER", some .ipList⟩,
  ⟨71, "NNTP_SERVER", some .ipList⟩,
  ⟨72, "DEFAULT_WWW_SERVER", some .ipList⟩,
  ⟨73, "DEFAULT_FINGER_SERVER", some .ipList⟩,
  ⟨74, "DEFAULT_IRC_SERVER", some .ipList⟩,
  ⟨75, "STREETTALK_SERVER", some .ipList⟩,
  ⟨76, "STREETTALK_DIRECTORY_ASSISTANCE_SERVER", some .ipList⟩,
  ⟨50, "REQUESTED_IP_ADDRESS", none⟩,
  ⟨51, "IP_ADDRESS_LEASE_TIME", some .long⟩,
  ⟨52, "OPTION_OVERLOAD", some .byte⟩,
  ⟨66, "TFTP_SERVER_NAME", some .string⟩,
  ⟨67, "BOOTFILE_NAME", some .string⟩,
  ⟨53, "DHCP_MESSAGE_TYPE", none⟩,
  ⟨54, "SERVER_IDENTIFIER", some .ip⟩,
  ⟨55, "PARAMETER_REQUEST_LIST", none⟩,
  ⟨56, "MESSAGE", none⟩,
  ⟨57, "MAXIMUM_DHCP_MESSAGE_SIZE", none⟩,
  ⟨58, "RENEWAL_T1_TIME_VALUE", some .long⟩,
  ⟨59, "REBINDING_T2_TIME_VALUE", some .long⟩,
  ⟨60, "VENDOR_CLASS_IDENTIFIER", none⟩,
  ⟨61, "CLIENT_IDENTIFIER", none⟩ ]

/-- `dhcp_option_info[id]`: of two initializers for one element the later one counts. -/
def dhcpOptionInfo (id : Nat) : Option OptionInfo := optionInfos.reverse.find? fun info => info.id == id

/-- The loop of `parse_option` over the names. -/
def findOption (name : String) : Option OptionInfo :=
  ((List.range 256).find? fun id => (dhcpOptionInfo id).any fun info => info.name == name).bind dhcpOptionInfo

theorem taken_bound (produced : List Byte) (len : Byte) : (produced.take len.toNat).length < 256 :=
  Nat.lt_of_le_of_lt (List.length_take_le _ _) len.isLt

/-- `parse_option`, with a parser that stays inside its allocation: what it returns, and `*opt` afterwards.
The number of bytes is narrowed to a `uint8_t` before it is tested. -/
def parseOption (opt : DhcpOption) (name : String) (value : List Char) : Byte × DhcpOption :=
  match findOption name with
  | none => (0#8, opt)
  | some info =>
    match info.f with
    | none => (0#8, opt)
    | some f =>
      let p := f.parse value
      let len := BitVec.ofNat 8 p.length
      if len = 0#8 then
        (0#8, opt)
      else
        (BitVec.ofNat 8 info.id, ⟨BitVec.ofNat 8 info.id, p.take len.toNat, taken_bound p len⟩)

end DhcpServer
