import DhcpServer.Lib.Memory

/-!
# DHCP messages and client tasks (`dhcp_structure.h`, `server_connection.h`)

A `dhcp_message` is the memory at its address; its fields are views at the struct's offsets.
The struct is 548 bytes with 312 bytes of options, but a received message lives in a 512-byte
buffer, so only 276 of its option bytes are the datagram's. What follows the buffer is the rest
of the `ClientTask` and then whatever lies beyond it.
-/

namespace DhcpServer
set_option autoImplicit false
open Lib

/-- `BUFFER_SIZE`. -/
def bufferSize : Nat := 512

/-- `BOOTREQUEST` and `BOOTREPLY`. -/
def bootRequest : Byte := 1#8
def bootReply : Byte := 2#8

/-- The bytes at a `struct dhcp_message`. -/
abbrev DhcpMessage := Memory

namespace DhcpMessage

/-- `sizeof(dhcp_message)`. -/
def size : Nat := 548

def chaddrOffset : Nat := 28

/-- `sizeof(request->chaddr)`. -/
def chaddrSize : Nat := 16

def snameOffset : Nat := 44
def fileOffset : Nat := 108
def optionsOffset : Nat := 236

/-- `sizeof(request->options)`. -/
def optionsSize : Nat := 312

/-- `DHCP_OPTIONS_MAX_LEN`, the option bytes the buffer holds. No code uses the macro. -/
def dhcpOptionsMaxLen : Nat := 276

def op (m : DhcpMessage) : Byte := m 0
def htype (m : DhcpMessage) : Byte := m 1
def hlen (m : DhcpMessage) : Byte := m 2
def xid (m : DhcpMessage) : BitVec 32 := m.load32 4
def flags (m : DhcpMessage) : List Byte := m.slice 10 2
def ciaddr (m : DhcpMessage) : BitVec 32 := m.load32 12
def yiaddr (m : DhcpMessage) : BitVec 32 := m.load32 16
def siaddr (m : DhcpMessage) : BitVec 32 := m.load32 20
def sname (m : DhcpMessage) : List Byte := m.slice snameOffset 64
def file (m : DhcpMessage) : List Byte := m.slice fileOffset 128
def options (m : DhcpMessage) : Memory := m.shift optionsOffset

end DhcpMessage

/-- A client identifier: `cident_len` and that many bytes of `cident[256]`. -/
@[ext] structure ClientIdent where
  bytes : List Byte
  bound : bytes.length < 256

instance : DecidableEq ClientIdent := fun a b =>
  decidable_of_iff (a.bytes = b.bytes) ClientIdent.ext_iff.symm

/-- The identifier a pointer into `m` and a length denote. The bytes are read from memory, so a
length past the end of `chaddr` takes in the fields behind it. -/
def identAt (m : Memory) (offset : Nat) (len : Byte) : ClientIdent where
  bytes := m.slice offset len.toNat
  bound := by
    rw [Memory.slice_length]
    exact len.isLt

/-- The client of a message: the first `hlen` bytes at `chaddr`. -/
def DhcpMessage.ident (m : DhcpMessage) : ClientIdent := identAt m chaddrOffset m.hlen

@[simp] theorem identAt_length (m : Memory) (offset : Nat) (len : Byte) :
    (identAt m offset len).bytes.length = len.toNat := Memory.slice_length m offset len.toNat

/-- `struct sockaddr_in`, its words as they lie in memory. -/
structure SockAddrIn where
  sinFamily : BitVec 16
  sinPort : BitVec 16
  sinAddr : BitVec 32
deriving DecidableEq

/-- The 512-byte buffer of a `ClientTask` and the memory from `client_len` on. The pointers in
front of the buffer all go to the server's own pool, bindings and configuration. -/
structure ClientTask where
  buffer : Fin bufferSize → Byte
  after : Memory

namespace ClientTask

/-- `(dhcp_message*)task->buffer`. -/
def request (task : ClientTask) : DhcpMessage := fun i =>
  if h : i < bufferSize then task.buffer ⟨i, h⟩ else task.after (i - bufferSize)

/-- `recv_bytes`, a signed 64-bit word behind `client_len` and four bytes of padding. -/
def recvBytes (task : ClientTask) : Int := (task.after.load32 12 ++ task.after.load32 8).toInt

/-- `client_addr`, behind `recv_bytes`. -/
def clientAddr (task : ClientTask) : SockAddrIn where
  sinFamily := task.after 17 ++ task.after 16
  sinPort := task.after 19 ++ task.after 18
  sinAddr := task.after.load32 20

/-- What `main` copies into a zeroed task. -/
def ofDatagram (datagram : List Byte) (after : Memory) : ClientTask where
  buffer := fun i => datagram.getD i 0#8
  after := after

/-- What `main` leaves behind the buffer: `client_len`, `recv_bytes` and `client_addr`. -/
def behindBuffer (clientLen : BitVec 32) (recvBytes : BitVec 32) (addr : SockAddrIn) : Memory :=
  Memory.zero
    |>.store32 0 clientLen
    |>.store32 8 recvBytes
    |>.store32 16 (addr.sinPort ++ addr.sinFamily)
    |>.store32 20 addr.sinAddr

theorem request_inside (task : ClientTask) {i : Nat} (inside : i < bufferSize) :
    task.request i = task.buffer ⟨i, inside⟩ := dif_pos inside

theorem request_outside (task : ClientTask) (i : Nat) :
    task.request (bufferSize + i) = task.after i := by
  rw [request, dif_neg (by omega), Nat.add_sub_cancel_left]

/-- The options run on behind the buffer. -/
theorem options_outside (task : ClientTask) (i : Nat) :
    task.request.options (DhcpMessage.dhcpOptionsMaxLen + i) = task.after i := by
  have position : DhcpMessage.optionsOffset + (DhcpMessage.dhcpOptionsMaxLen + i) = bufferSize + i := by
    simp only [DhcpMessage.optionsOffset, DhcpMessage.dhcpOptionsMaxLen, bufferSize]
    omega
  rw [DhcpMessage.options, Memory.shift_apply, position, request_outside]

theorem request_ofDatagram (datagram : List Byte) (after : Memory) {i : Nat} (inside : i < bufferSize) :
    (ofDatagram datagram after).request i = datagram.getD i 0#8 := request_inside _ inside

end ClientTask

end DhcpServer
