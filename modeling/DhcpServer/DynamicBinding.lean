import DhcpServer.Client
import DhcpServer.Step

/-!
# The other allocator (`take_free_address`, `add_binding`, `new_dynamic_binding`)

Both allocators move `ip_current`. For `offer_ip_available` it is the address handed out last, for
`take_free_address` the next one to hand out, which it does not look up among the bindings; and it
swaps the bytes of the cursor when it moves on.
-/

namespace DhcpServer
set_option autoImplicit false
open Lib

/-- A binding list and a pointer to one of its elements or `NULL`. -/
structure Pointed where
  bindings : BindingList
  binding : Option (Fin bindings.length)

/-- `add_binding`, at the time `now`. -/
def addBinding (list : BindingList) (address : BitVec 32) (cident : ClientIdent) (isStatic : Assignment)
    (now : Int) (callocOk : Bool) : Pointed :=
  if !callocOk then
    ⟨list, none⟩
  else
    let binding : IpBinding :=
      { address := address
        cident := cident
        bindingTime := now
        leaseTime := 0
        status := .pending
        isStatic := isStatic }
    ⟨binding :: list, some ⟨0, Nat.zero_lt_succ _⟩⟩

/-- `take_free_address`: the address, zero for none, and the indexes afterwards. -/
def takeFreeAddress (indexes : IpPoolInd) : BitVec 32 × IpPoolInd :=
  if indexes.ipCurrent ≤ indexes.ipLast then
    (indexes.ipCurrent, { indexes with ipCurrent := ntohl indexes.ipCurrent + 1 })
  else
    (0#32, indexes)

/-- `found_binding`: the loop goes on behind a match, so the last one stays. -/
def foundBinding (list : BindingList) (address : BitVec 32) : Option (Fin list.length) :=
  if address ≠ 0#32 then
    (List.finRange list.length).foldl
      (fun found binding => if (list.get binding).address = address then some binding else found) none
  else
    none

/-- Neither `PENDING` nor `ASSOCIATED`. -/
def BindingStatus.ended (status : BindingStatus) : Bool := status != .pending && status != .associated

/-- What `new_dynamic_binding` returns as it is. -/
def IpBinding.reusable (b : IpBinding) : Bool := b.isStatic == .dynamic && b.status.ended

/-- The last loop of `new_dynamic_binding`. It tests the status of `found_binding`, not of the
binding at hand; `none` is a read through `NULL`. -/
def anyDynamic (list : BindingList) (found : Option (Fin list.length)) : Option (Option (Fin list.length)) :=
  match list.findFinIdx? (fun binding => binding.isStatic == .dynamic), found with
  | none, _ => some none
  | some _, none => none
  | some binding, some found => if (list.get found).status.ended then some (some binding) else some none

/-- `new_dynamic_binding`: the list with the binding returned, and the indexes afterwards. -/
def newDynamicBinding (list : BindingList) (indexes : IpPoolInd) (address : BitVec 32) (cident : ClientIdent)
    (now : Int) (callocOk : Bool) : Option (Pointed × IpPoolInd) :=
  let found := foundBinding list address
  match found.filter (fun binding => (list.get binding).reusable) with
  | some binding => some (⟨list, some binding⟩, indexes)
  | none =>
    let (newAddress, indexes) := takeFreeAddress indexes
    if newAddress ≠ 0#32 then
      some (addBinding list newAddress cident .dynamic now callocOk, indexes)
    else
      (anyDynamic list found).map fun binding => (⟨list, binding⟩, indexes)

/-! ## Both allocators on one server -/

inductive Call where
  | message (turn : Turn)
  | newDynamicBinding (address : BitVec 32) (cident : ClientIdent) (now : Int) (callocOk : Bool)

inductive Answer where
  | handled (action : Action)
  | bound (binding : Option IpBinding)

/-- The server with both ways in: messages and calls of `new_dynamic_binding`. -/
def allocate : Machine Server Call Answer := fun s call =>
  match call with
  | .message turn => (serve s turn).map fun r => (r.1, .handled r.2)
  | .newDynamicBinding address cident now callocOk =>
    (newDynamicBinding s.bindings s.pool address cident now callocOk).map fun r =>
      ({ s with pool := r.2, bindings := r.1.bindings }, .bound (r.1.binding.map r.1.bindings.get))

/-- No two bindings have the same address, and every address is in the range. -/
def UniqueAddresses (s : Server) : Prop :=
  s.bindings.Pairwise (fun b c => b.address ≠ c.address) ∧
    ∀ b ∈ s.bindings, s.pool.ipFirst ≤ b.address ∧ b.address ≤ s.pool.ipLast

/-- A call that takes the address of the cursor for a new binding finds it available. -/
def TakesAvailable (s : Server) : Call → Prop
  | .message _ => True
  | .newDynamicBinding address _ _ callocOk =>
    (∀ b, foundBinding s.bindings address = some b → (s.bindings.get b).reusable = false) →
    s.pool.ipCurrent ≠ 0#32 → s.pool.ipCurrent ≤ s.pool.ipLast → callocOk = true →
    isIpAvailable s.pool s.bindings s.pool.ipCurrent = true

section Unique
variable {s t : Server} {turn : Turn} {action : Action}

/-- An offered address is available, and the range stays. -/
theorem offer_available {pool pool' : IpPoolInd} {bindings : BindingList} {ip : BitVec 32}
    (offer : offerIpAvailable pool bindings = some (ip, pool')) :
    pool'.ipFirst = pool.ipFirst ∧ pool'.ipLast = pool.ipLast ∧
      (ip ≠ 0#32 → isIpAvailable pool bindings ip = true) := by
  unfold offerIpAvailable at offer
  split at offer
  · cases offer
  · cases offer
    exact ⟨rfl, rfl, fun nonzero => (nonzero rfl).elim⟩
  · rename_i found
    cases offer
    exact ⟨rfl, rfl, fun _ => (scan_hit found).1⟩

/-- The property of the addresses alone. -/
theorem uniqueAddresses_iff : UniqueAddresses s ↔ (s.bindings.map IpBinding.address).Nodup ∧
    ∀ a ∈ s.bindings.map IpBinding.address, s.pool.ipFirst ≤ a ∧ a ≤ s.pool.ipLast := by
  rw [UniqueAddresses, List.forall_mem_map, List.Nodup, List.pairwise_map]

/-- Losing bindings, or changing them but for their addresses. -/
theorem UniqueAddresses.sublist (unique : UniqueAddresses s) (first : t.pool.ipFirst = s.pool.ipFirst)
    (last : t.pool.ipLast = s.pool.ipLast)
    (addresses : (t.bindings.map IpBinding.address).Sublist (s.bindings.map IpBinding.address)) :
    UniqueAddresses t := by
  obtain ⟨distinct, inRange⟩ := uniqueAddresses_iff.mp unique
  rw [uniqueAddresses_iff, first, last]
  exact ⟨distinct.sublist addresses, fun a member => inRange a (addresses.subset member)⟩

/-- A new binding has to have an available address. -/
theorem uniqueAddresses_insert (unique : UniqueAddresses s) {b : IpBinding} {pool : IpPoolInd}
    (first : pool.ipFirst = s.pool.ipFirst) (last : pool.ipLast = s.pool.ipLast) :
    UniqueAddresses { s with pool := pool, bindings := b :: s.bindings } ↔
      isIpAvailable s.pool s.bindings b.address = true := by
  obtain ⟨distinct, inRange⟩ := unique
  simp only [UniqueAddresses, List.pairwise_cons, List.forall_mem_cons, first, last, isIpAvailable_iff]
  constructor
  · rintro ⟨⟨fresh, -⟩, ⟨low, high⟩, -⟩
    exact ⟨low, high, fun c member => (fresh c member).symm⟩
  · rintro ⟨low, high, fresh⟩
    exact ⟨⟨fun c member => (fresh c member).symm, distinct⟩, ⟨low, high⟩, inRange⟩

/-- **Messages keep the addresses unique**: `offer_ip_available` looks them up. -/
theorem uniqueAddresses_served (unique : UniqueAddresses s) (served : Served s turn t action) :
    UniqueAddresses t := by
  cases served with
  | missed _ _ offer =>
    obtain ⟨first, last, -⟩ := offer_available offer
    exact unique.sublist first last (List.Sublist.refl _)
  | outOfMemory _ _ offer =>
    obtain ⟨first, last, -⟩ := offer_available offer
    exact unique.sublist first last (List.Sublist.refl _)
  | offered _ _ offer nonzero =>
    obtain ⟨first, last, available⟩ := offer_available offer
    exact (uniqueAddresses_insert unique first last).mpr (available nonzero)
  | @declined b _ search =>
    obtain ⟨front, back, split, -, -, removed, -⟩ := searchBinding_split search
    refine unique.sublist rfl rfl ?_
    have kept := (remove_sublist front (s.bindings.get b) back).map IpBinding.address
    rw [← split] at kept
    rwa [removed]
  | released =>
    refine unique.sublist rfl rfl ?_
    rw [map_updateBinding s.bindings _ IpBinding.release_address]
  | _ => exact unique

/-! ### Calls of `new_dynamic_binding` -/

theorem takeFreeAddress_range (indexes : IpPoolInd) : (takeFreeAddress indexes).2.ipFirst = indexes.ipFirst ∧
    (takeFreeAddress indexes).2.ipLast = indexes.ipLast := by
  unfold takeFreeAddress
  split <;> exact ⟨rfl, rfl⟩

theorem takeFreeAddress_ne {indexes : IpPoolInd} (nonzero : (takeFreeAddress indexes).1 ≠ 0#32) :
    indexes.ipCurrent ≤ indexes.ipLast ∧ (takeFreeAddress indexes).1 = indexes.ipCurrent := by
  unfold takeFreeAddress at nonzero ⊢
  split at nonzero
  · rename_i room
    exact ⟨room, by rw [if_pos room]⟩
  · exact (nonzero rfl).elim

theorem takeFreeAddress_eq {indexes : IpPoolInd} (room : indexes.ipCurrent ≤ indexes.ipLast) :
    (takeFreeAddress indexes).1 = indexes.ipCurrent := by
  rw [takeFreeAddress, if_pos room]

/-- What a call does to the server: it takes an address, or leaves the bindings as they are. -/
inductive Bound (s : Server) (address : BitVec 32) (cident : ClientIdent) (now : Int) (callocOk : Bool) :
    Server → Prop where
  | kept {pool : IpPoolInd} (first : pool.ipFirst = s.pool.ipFirst) (last : pool.ipLast = s.pool.ipLast)
      (idle : TakesAvailable s (.newDynamicBinding address cident now callocOk)) :
      Bound s address cident now callocOk { s with pool := pool }
  | inserted {pool : IpPoolInd} {b : IpBinding} (first : pool.ipFirst = s.pool.ipFirst)
      (last : pool.ipLast = s.pool.ipLast)
      (busy : ∀ b, foundBinding s.bindings address = some b → (s.bindings.get b).reusable = false)
      (nonzero : s.pool.ipCurrent ≠ 0#32) (room : s.pool.ipCurrent ≤ s.pool.ipLast) (calloc : callocOk = true)
      (takes : b.address = s.pool.ipCurrent) :
      Bound s address cident now callocOk { s with pool := pool, bindings := b :: s.bindings }

theorem bound_of_newDynamicBinding {address : BitVec 32} {cident : ClientIdent} {now : Int} {callocOk : Bool}
    {r : Pointed × IpPoolInd}
    (returned : newDynamicBinding s.bindings s.pool address cident now callocOk = some r) :
    Bound s address cident now callocOk { s with pool := r.2, bindings := r.1.bindings } := by
  unfold newDynamicBinding at returned
  simp only at returned
  split at returned
  · rename_i b reused
    cases returned
    obtain ⟨found, reusable⟩ := Option.filter_eq_some_iff.mp reused
    refine .kept rfl rfl fun busy => ?_
    rw [busy b found] at reusable
    cases reusable
  · rename_i unused
    have busy : ∀ b, foundBinding s.bindings address = some b → (s.bindings.get b).reusable = false := by
      intro b found
      simpa using Option.filter_eq_none_iff.mp unused b found
    obtain ⟨first, last⟩ := takeFreeAddress_range s.pool
    by_cases nonzero : (takeFreeAddress s.pool).1 ≠ 0#32
    · obtain ⟨room, address⟩ := takeFreeAddress_ne nonzero
      rw [if_pos nonzero] at returned
      cases returned
      cases calloc : callocOk with
      | true => exact .inserted first last busy (address ▸ nonzero) room rfl address
      | false => exact .kept first last fun _ _ _ allocated => nomatch allocated
    · rw [if_neg nonzero] at returned
      obtain ⟨b, -, rfl⟩ := Option.map_eq_some_iff.mp returned
      refine .kept first last fun _ cursor room _ => (nonzero ?_).elim
      rwa [takeFreeAddress_eq room]

/-- **A call keeps the addresses unique exactly when the address it takes is available.** -/
theorem uniqueAddresses_bound (unique : UniqueAddresses s) {address : BitVec 32} {cident : ClientIdent} {now : Int}
    {callocOk : Bool} (bound : Bound s address cident now callocOk t) :
    UniqueAddresses t ↔ TakesAvailable s (.newDynamicBinding address cident now callocOk) := by
  cases bound with
  | kept first last idle => exact iff_of_true (unique.sublist first last (List.Sublist.refl _)) idle
  | inserted first last busy nonzero room calloc takes =>
    rw [uniqueAddresses_insert unique first last, takes]
    exact ⟨fun available _ _ _ _ => available, fun available => available busy nonzero room calloc⟩

theorem uniqueAddresses_allocate (s : Server) (call : Call) (t : Server) (answer : Answer)
    (unique : UniqueAddresses s) (stepped : allocate s call = some (t, answer)) :
    UniqueAddresses t ↔ TakesAvailable s call := by
  cases call with
  | message turn =>
    obtain ⟨⟨u, action⟩, served, same⟩ := Option.map_eq_some_iff.mp stepped
    cases same
    exact iff_of_true (uniqueAddresses_served unique (served_of_serve served)) trivial
  | newDynamicBinding address cident now callocOk =>
    obtain ⟨r, returned, same⟩ := Option.map_eq_some_iff.mp stepped
    cases same
    exact uniqueAddresses_bound unique (bound_of_newDynamicBinding returned)

end Unique

/-- **When both allocation paths keep addresses unique.** Along a run of a server that started without
bindings, the addresses stay distinct and in the range exactly when every call of `new_dynamic_binding`
that takes the address of the cursor finds it available. -/
theorem unique_addresses_iff {first last : BitVec 32} {config : DhcpConfig} {h : List (Call × Answer)} {s : Server}
    (run : Run allocate (Server.fresh (.ofRange first last) config) h s) :
    AlwaysIn allocate (Server.fresh (.ofRange first last) config) h UniqueAddresses ↔
      EachStep allocate (Server.fresh (.ofRange first last) config) h TakesAvailable :=
  run.alwaysIn_iff ⟨.nil, nofun⟩ uniqueAddresses_allocate

/-- A call for no address in particular. -/
def callFor (mac : List Byte) : Call := .newDynamicBinding 0#32 (discover mac).turn.ident 0 true

/-- The address taken was offered and declined before. -/
theorem unique_addresses_after_decline : ∃ h s, Run allocate (Server.fresh lanPool lanConfig) h s ∧
    h.map Prod.fst = [callFor macB, .message (declineOf macA 0xC0A80110#32).turn, .message (discover macA).turn] ∧
    AlwaysIn allocate (Server.fresh lanPool lanConfig) h UniqueAddresses := by
  obtain ⟨s, h, run, inputs, check⟩ := @Run.of_check _ _ _ allocate (Server.fresh lanPool lanConfig)
    [.message (discover macA).turn, .message (declineOf macA 0xC0A80110#32).turn]
    (fun s _ => isIpAvailable s.pool s.bindings s.pool.ipCurrent && (allocate s (callFor macB)).isSome)
    (by decide)
  obtain ⟨available, returns⟩ := Bool.and_eq_true_iff.mp check
  obtain ⟨⟨t, answer⟩, stepped⟩ := Option.isSome_iff_exists.mp returns
  refine ⟨_, t, run.snoc stepped, by rw [List.map_cons, inputs]; rfl, (unique_addresses_iff (run.snoc stepped)).mpr ?_⟩
  refine (eachStep_cons run).mpr ⟨fun older u call answer suffix _ => ?_, fun _ _ _ _ => available⟩
  have earlier : call ∈ h.map Prod.fst := List.mem_map_of_mem (suffix.subset List.mem_cons_self)
  rw [inputs] at earlier
  rcases List.mem_cons.mp earlier with rfl | earlier
  · trivial
  · cases List.mem_singleton.mp earlier
    trivial

/-- The address offered last is taken again. -/
theorem same_address_twice : ∃ h s, Run allocate (Server.fresh lanPool lanConfig) h s ∧
    h.map Prod.fst = [callFor macB, .message (discover macA).turn] ∧
    s.bindings.map IpBinding.address = [0xC0A80110#32, 0xC0A80110#32] ∧ ¬ UniqueAddresses s := by
  obtain ⟨s, h, run, inputs, check⟩ := @Run.of_check _ _ _ allocate (Server.fresh lanPool lanConfig)
    [.message (discover macA).turn, callFor macB]
    (fun s _ => s.bindings.map IpBinding.address == [0xC0A80110#32, 0xC0A80110#32]) (by decide)
  have twice := eq_of_beq check
  refine ⟨h, s, run, inputs, twice, fun unique => ?_⟩
  have distinct := (uniqueAddresses_iff.mp unique).1
  rw [twice] at distinct
  exact absurd distinct (by decide)

end DhcpServer
