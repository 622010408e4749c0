import DhcpServer.Client
import DhcpServer.ConfigSettings

/-!
# Malformed lines

A line with a keyword that lacks an argument, or has one that is no address. Two-argument scans that come
through set whatever `inet_addr` makes of their tokens; and `subnet` is taken for scanned when it is not,
and read when the netmask has overwritten it.
-/

namespace DhcpServer
set_option autoImplicit false
open Lib

/-- The directives of a configuration file. -/
inductive ConfigDirective where
  | range | defaultLeaseTime | maxLeaseTime | subnet | routers | domainNameServers
deriving DecidableEq

namespace ConfigDirective

def keyword : ConfigDirective → String
  | range => "range"
  | defaultLeaseTime => "default-lease-time"
  | maxLeaseTime => "max-lease-time"
  | subnet => "subnet"
  | routers => "option routers"
  | domainNameServers => "option domain-name-servers"

/-- How a directive is written. The reader scans for the routers with `options`. -/
def format : ConfigDirective → String
  | range => "range %15s %15s"
  | defaultLeaseTime => "default-lease-time %d"
  | maxLeaseTime => "max-lease-time %d"
  | subnet => "subnet %15s netmask %15s"
  | routers => "option routers %15s"
  | domainNameServers => "option domain-name-servers %15s, %15s"

/-- The setting of two addresses. -/
def setting : ConfigDirective → Option (BitVec 32 → BitVec 32 → Setting)
  | range => some .range
  | subnet => some .subnet
  | domainNameServers => some .domainNameServers
  | defaultLeaseTime | maxLeaseTime | routers => none

/-- The arguments a line has. -/
def scan (d : ConfigDirective) (line : List Char) : List Value := (sscanf d.format line).values

/-- What the first of two arrays holds when both tokens have been stored: a netmask of six characters or more
does not leave `subnet` alone. -/
def held (d : ConfigDirective) (frame : StackFrame) (first second : List Char) : List Char :=
  if d = .subnet ∧ 6 ≤ second.length then frame.overrun first second else first

end ConfigDirective

section Lines
variable {d : ConfigDirective} {frame : StackFrame} {line buffer : List Char} {s t : ReadState} {config : DhcpConfig}
  {pool : IpPoolInd}

/-- The branch of a directive. -/
def ConfigDirective.read (d : ConfigDirective) (frame : StackFrame) (line : List Char) (s : ReadState) : ReadState :=
  match d with
  | .range => readRange line s
  | .defaultLeaseTime => readDefaultLeaseTime line s
  | .maxLeaseTime => readMaxLeaseTime line s
  | .subnet => readSubnet frame line s
  | .routers => readRouters line s
  | .domainNameServers => readDomainNameServers line s

section Pair
variable {scanned : Scanned} {a b : List Char}

end Pair

end Lines

end DhcpServer
