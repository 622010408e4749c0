import DhcpServer.Message

/-!
# The server's data (`ip_pool_manager.h`, `ip_pool_manager.c`, `config_reader.h`)

The `LIST` of bindings is a Lean list, head first; a pointer to one of its elements is an index
into it. `time_t` values are integers.
-/

namespace DhcpServer
set_option autoImplicit false
open Lib

/-- How an address was assigned, and what a search accepts. -/
inductive Assignment where
  | dynamic | static | staticOrDynamic
deriving DecidableEq

inductive BindingStatus where
  | empty | associated | pending | expired | released
deriving DecidableEq

/-- `struct ip_pool_ind`, host order. -/
structure IpPoolInd where
  ipFirst : BitVec 32
  ipLast : BitVec 32
  ipCurrent : BitVec 32
deriving DecidableEq

/-- The pool `read_config_dhcp` sets up for a range: the cursor starts at the first address. -/
def IpPoolInd.ofRange (first last : BitVec 32) : IpPoolInd where
  ipFirst := first
  ipLast := last
  ipCurrent := first

/-- `struct dhcp_config`. The lease times are the bits of a C `int`. -/
structure DhcpConfig where
  ipPoolStart : BitVec 32
  ipPoolEnd : BitVec 32
  subnet : BitVec 32
  netmask : BitVec 32
  router : BitVec 32
  dns : Vector (BitVec 32) 2
  defaultLeaseTime : BitVec 32
  maxLeaseTime : BitVec 32
deriving DecidableEq

/-- `struct ip_binding`. -/
structure IpBinding where
  address : BitVec 32
  cident : ClientIdent
  bindingTime : Int
  leaseTime : Int
  status : BindingStatus
  isStatic : Assignment
deriving DecidableEq

/-- `binding_list`, from `LIST_FIRST` on. -/
abbrev BindingList := List IpBinding

/-- The test of `search_binding`'s loop. `EMPTY` as wanted status accepts every status. -/
def IpBinding.matches (ident : ClientIdent) (isStatic : Assignment) (status : BindingStatus)
    (b : IpBinding) : Bool :=
  (b.isStatic == isStatic || isStatic == .staticOrDynamic) && b.cident == ident &&
    (status == .empty || b.status == status)

/-- `search_binding`: the first match from the head. -/
def searchBinding (list : BindingList) (ident : ClientIdent) (isStatic : Assignment)
    (status : BindingStatus) : Option (Fin list.length) :=
  list.findFinIdx? (IpBinding.matches ident isStatic status)

/-- `remove_binding`. -/
def removeBinding (list : BindingList) (b : Fin list.length) : BindingList := list.eraseIdx b

/-- The two writes of an accepted release: `status = RELEASED; lease_time = 0`. -/
def IpBinding.release (b : IpBinding) : IpBinding := { b with status := .released, leaseTime := 0 }

/-- An update through a pointer into the list. -/
def updateBinding (list : BindingList) (b : Fin list.length) (f : IpBinding → IpBinding) : BindingList :=
  list.modify b f

@[simp] theorem IpBinding.release_address (b : IpBinding) : b.release.address = b.address := rfl
@[simp] theorem IpBinding.release_cident (b : IpBinding) : b.release.cident = b.cident := rfl
@[simp] theorem IpBinding.release_status (b : IpBinding) : b.release.status = .released := rfl
@[simp] theorem IpBinding.release_isStatic (b : IpBinding) : b.release.isStatic = b.isStatic := rfl

/-- Whether `b` is a lease of the client: its identifier, with status `ASSOCIATED`. -/
def IpBinding.leasedTo (ident : ClientIdent) (b : IpBinding) : Bool :=
  b.cident == ident && b.status == .associated

theorem IpBinding.leasedTo_iff {ident : ClientIdent} {b : IpBinding} :
    b.leasedTo ident = true ↔ b.cident = ident ∧ b.status = .associated := by
  simp [leasedTo]

/-- On a dynamic binding the look-ups for `ASSOCIATED` bindings all ask whether it is a lease. -/
theorem IpBinding.matches_associated {ident : ClientIdent} {wanted : Assignment} {b : IpBinding}
    (dynamic : b.isStatic = .dynamic) (accepts : wanted ≠ .static) :
    b.matches ident wanted .associated = b.leasedTo ident := by
  have named : (BindingStatus.associated == BindingStatus.empty) = false := rfl
  cases wanted with
  | dynamic => simp [IpBinding.matches, leasedTo, dynamic, named]
  | static => exact (accepts rfl).elim
  | staticOrDynamic => simp [IpBinding.matches, leasedTo, named]

end DhcpServer
