import DhcpServer.Lib.Run
import DhcpServer.Allocate
import DhcpServer.Reply
import DhcpServer.TypeScan

/-!
# The server (`handle_client` and its handlers)

One worker takes task after task and runs `handle_client` on each. A turn is a task together
with what the C library answers while it is handled: the clock, `malloc` and `sendto`. A handler
returns with an action, what it logged or sent; or the process exits; or it never returns.
-/

namespace DhcpServer
set_option autoImplicit false
open Lib

/-- The state the handlers share. -/
structure Server where
  pool : IpPoolInd
  bindings : BindingList
  config : DhcpConfig

/-- `main`'s state after reading its configuration: no bindings. -/
def Server.fresh (pool : IpPoolInd) (config : DhcpConfig) : Server where
  pool := pool
  bindings := []
  config := config

structure Turn where
  task : ClientTask
  now : Int
  mallocOk : Bool
  sendOk : Bool

def Turn.request (turn : Turn) : DhcpMessage := turn.task.request

/-- The client that sent the message. -/
def Turn.ident (turn : Turn) : ClientIdent := turn.request.ident

inductive Action where
  /-- No handler was called. -/
  | ignored
  /-- "No available IP addresses in the pool." -/
  | exhausted
  | outOfMemory
  /-- A binding for `ip` was inserted and the OFFER given to `sendto`. -/
  | offered (ip : BitVec 32) (reply : Reply) (sent : Bool)
  /-- "No active binding for this client" -/
  | noBinding
  | acked (reply : Reply)
  /-- "IP address ... is declined" -/
  | declined (ip : BitVec 32)
  /-- "IP address ... is released by client" -/
  | released (ip : BitVec 32)
  /-- A decline or release that changed nothing. -/
  | refused
  | informed (reply : Reply)
  | nacked (reply : Reply)

/-- What was given to `sendto`. -/
def Action.reply : Action → Option Reply
  | .offered _ reply _ => some reply
  | .acked reply => some reply
  | .informed reply => some reply
  | .nacked reply => some reply
  | _ => none

inductive Outcome where
  | returned (server : Server) (action : Action)
  | exited
  | hung

/-- The binding `send_DHCP_Offer` fills in. -/
def newBinding (turn : Turn) (config : DhcpConfig) (offeredIp : BitVec 32) : IpBinding where
  address := offeredIp
  cident := turn.ident
  bindingTime := turn.now
  leaseTime := turn.now + config.maxLeaseTime.toInt
  status := .associated
  isStatic := .dynamic

def sendDHCPOffer (s : Server) (turn : Turn) : Outcome :=
  if s.pool.ipCurrent ≥ s.pool.ipLast then
    .returned s .exhausted
  else
    match offerIpAvailable s.pool s.bindings with
    | none => .hung
    | some (offeredIp, pool) =>
      if offeredIp = 0#32 then
        .returned { s with pool := pool } .exhausted
      else if !turn.mallocOk then
        .returned { s with pool := pool } .outOfMemory
      else
        .returned { s with pool := pool, bindings := newBinding turn s.config offeredIp :: s.bindings }
          (.offered offeredIp ⟨offerMessage turn.request offeredIp s.config, broadcastAddr⟩ turn.sendOk)

/-- The key `send_DHCP_Ack` looks up: six bytes at `chaddr`, whatever `hlen` says. -/
def Turn.ackKey (turn : Turn) : ClientIdent := identAt turn.request DhcpMessage.chaddrOffset 6#8

def sendDHCPAck (s : Server) (turn : Turn) : Outcome :=
  match searchBinding s.bindings turn.ackKey .staticOrDynamic .associated with
  | none => .returned s .noBinding
  | some binding =>
    let config := ackConfig s.config
    if turn.sendOk then
      .returned { s with config := config }
        (.acked ⟨ackMessage turn.request (s.bindings.get binding).address config, broadcastAddr⟩)
    else
      .exited

def handleDHCPDecline (s : Server) (turn : Turn) : Outcome :=
  let declinedIp := ntohl turn.request.yiaddr
  match searchBinding s.bindings turn.ident .dynamic .associated with
  | none => .returned s .refused
  | some binding =>
    if (s.bindings.get binding).address = declinedIp then
      .returned { s with bindings := removeBinding s.bindings binding } (.declined declinedIp)
    else
      .returned s .refused

def handleDHCPRelease (s : Server) (turn : Turn) : Outcome :=
  let releasedIp := ntohl turn.request.ciaddr
  match searchBinding s.bindings turn.ident .staticOrDynamic .associated with
  | none => .returned s .refused
  | some binding =>
    if (s.bindings.get binding).address = releasedIp then
      .returned { s with bindings := updateBinding s.bindings binding IpBinding.release } (.released releasedIp)
    else
      .returned s .refused

def handleDHCPInformReply (s : Server) (turn : Turn) : Outcome :=
  if turn.sendOk then
    .returned s (.informed ⟨informReply turn.request s.config, turn.task.clientAddr⟩)
  else
    .exited

def sendDHCPNACK (s : Server) (turn : Turn) : Outcome :=
  if turn.sendOk then
    .returned s (.nacked ⟨nackMessage turn.request, turn.task.clientAddr⟩)
  else
    .exited

/-- The calls of `handle_client`. -/
inductive Handler where
  | ignore | offer | ack | decline | release | inform | nack
deriving DecidableEq

/-- The `switch` of `handle_client` on the message type. -/
def switchType (messageType : Byte) : Handler :=
  match messageType.toNat with
  | 1 => .offer
  | 3 => .ack
  | 5 => .decline
  | 7 => .release
  | 8 => .inform
  | 6 => .nack
  | _ => .ignore

/-- Which handler `handle_client` calls for a task. -/
def dispatch (task : ClientTask) : Handler :=
  if task.recvBytes < 0 then
    .ignore
  else
    let request := task.request
    let messageType := getDhcpMessageType request.options DhcpMessage.optionsSize
    if request.op = bootRequest then
      if request.xid ≠ 0#32 then switchType messageType else .ignore
    else
      .ignore

def handleClient (s : Server) (turn : Turn) : Outcome :=
  match dispatch turn.task with
  | .ignore => .returned s .ignored
  | .offer => sendDHCPOffer s turn
  | .ack => sendDHCPAck s turn
  | .decline => handleDHCPDecline s turn
  | .release => handleDHCPRelease s turn
  | .inform => handleDHCPInformReply s turn
  | .nack => sendDHCPNACK s turn

/-- The server as a machine: the turns that return. -/
def serve : Machine Server Turn Action := fun s turn =>
  match handleClient s turn with
  | .returned t action => some (t, action)
  | .exited => none
  | .hung => none

/-- What the server did, newest turn first. -/
abbrev History := List (Turn × Action)

end DhcpServer
