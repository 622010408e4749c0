import DhcpServer.Lib.LinkedList
import DhcpServer.Lib.Simulation
import DhcpServer.Recycling
import DhcpServer.SweepFilter

/-!
# The pool manager on linked bindings (`ip_pool_manager.c`)

The functions of the file in any order, on nodes that `calloc` makes and `free` takes away. A function that
looks through a pointer to a binding that is not there, or through `NULL`, does not return; and there is one
place where this happens.
-/

namespace DhcpServer
set_option autoImplicit false
open Lib

inductive PoolCall where
  | addBinding (address : BitVec 32) (cident : ClientIdent) (isStatic : Assignment) (now : Int) (callocOk : Bool)
  | searchBinding (cident : ClientIdent) (isStatic : Assignment) (status : BindingStatus)
  /-- `remove_binding` of what `search_binding` returns. -/
  | removeBinding (cident : ClientIdent) (isStatic : Assignment) (status : BindingStatus)
  | updateBindingsStatuses (now : Int)
  | cleanupExpiredBindings
  | newDynamicBinding (address : BitVec 32) (cident : ClientIdent) (now : Int) (callocOk : Bool)

/-! ## On a list -/

structure ManagedPool where
  indexes : IpPoolInd
  bindings : BindingList

/-- A call, and the binding that the pointer returned leads to. -/
def manage : Machine ManagedPool PoolCall (Option IpBinding) := fun s call =>
  match call with
  | .addBinding address cident isStatic now callocOk =>
    let added := addBinding s.bindings address cident isStatic now callocOk
    some ({ s with bindings := added.bindings }, added.binding.map added.bindings.get)
  | .searchBinding cident isStatic status =>
    some (s, (searchBinding s.bindings cident isStatic status).map s.bindings.get)
  | .removeBinding cident isStatic status =>
    match searchBinding s.bindings cident isStatic status with
    | none => some (s, none)
    | some binding => some ({ s with bindings := removeBinding s.bindings binding }, none)
  | .updateBindingsStatuses now => some ({ s with bindings := updateBindingsStatuses now s.bindings }, none)
  | .cleanupExpiredBindings => some ({ s with bindings := cleanupExpiredBindings s.bindings }, none)
  | .newDynamicBinding address cident now callocOk =>
    (newDynamicBinding s.bindings s.indexes address cident now callocOk).map fun r =>
      (⟨r.2, r.1.bindings⟩, r.1.binding.map r.1.bindings.get)

/-! ## On nodes -/

structure LinkedPool where
  indexes : IpPoolInd
  bindings : Links IpBinding
  /-- How many calls there were. Each makes at most one binding, so no walk is longer. -/
  calls : Nat

/-- A call, and the block `calloc` answers with when it succeeds. -/
structure LinkedCall where
  call : PoolCall
  block : Nat

section Source
variable (h : Links IpBinding) (fuel block : Nat)

/-- `add_binding`: the bindings, and the pointer it returns. -/
def addBindingLinks (address : BitVec 32) (cident : ClientIdent) (isStatic : Assignment) (now : Int)
    (callocOk : Bool) : Option (Links IpBinding × Option Nat) :=
  if !callocOk then
    some (h, none)
  else
    let binding : IpBinding :=
      { address := address
        cident := cident
        bindingTime := now
        leaseTime := 0
        status := .pending
        isStatic := isStatic }
    (h.insertHead block binding).map fun h => (h, some block)

/-- `remove_binding`. -/
def removeBindingLinks : Option Nat → Option (Links IpBinding)
  | none => some h
  | some binding => h.remove binding

/-- The loop for the requested address. -/
def foundBindingLinks (address : BitVec 32) : Option (Option Nat) :=
  if address ≠ 0#32 then
    h.foldM (fun found binding => do
      if (← h.read (some binding) IpBinding.address) = address then return some binding else return found) fuel
      h.first none
  else
    some none

/-- `binding->status != PENDING && binding->status != ASSOCIATED` -/
def endedLinks (binding : Option Nat) : Option Bool := do
  if (← h.read binding IpBinding.status) != .pending then
    return (← h.read binding IpBinding.status) != .associated
  else
    return false

/-- `found_binding!=NULL && !found_binding->is_static && …` -/
def reusableLinks (found : Option Nat) : Option Bool := do
  if found.isSome then
    if (← h.read found IpBinding.isStatic) == .dynamic then endedLinks h found else return false
  else
    return false

/-- The last loop. -/
def anyDynamicLinks (found : Option Nat) : Option (Option Nat) :=
  h.findM (fun binding => do
    if (← h.read (some binding) IpBinding.isStatic) == .dynamic then endedLinks h found else return false) fuel
    h.first

/-- `new_dynamic_binding`. -/
def newDynamicBindingLinks (indexes : IpPoolInd) (address : BitVec 32) (cident : ClientIdent) (now : Int)
    (callocOk : Bool) : Option ((Links IpBinding × Option Nat) × IpPoolInd) := do
  let found ← foundBindingLinks h fuel address
  if ← reusableLinks h found then
    return ((h, found), indexes)
  else
    let (newAddress, indexes) := takeFreeAddress indexes
    if newAddress ≠ 0#32 then
      return (← addBindingLinks h block newAddress cident .dynamic now callocOk, indexes)
    else
      return ((h, ← anyDynamicLinks h fuel found), indexes)

/-- The pointer a function returns, and what it leads to. -/
def answerLinks : Option Nat → Option (Option (Nat × IpBinding))
  | none => some none
  | some p => (h.nodes p).map fun n => some (p, n.value)

end Source

/-- The bindings and the pointer after a call. -/
def callLinks (c : LinkedPool) (e : LinkedCall) : Option ((Links IpBinding × Option Nat) × IpPoolInd) :=
  match e.call with
  | .addBinding address cident isStatic now callocOk =>
    (addBindingLinks c.bindings e.block address cident isStatic now callocOk).map fun r => (r, c.indexes)
  | .searchBinding cident isStatic status =>
    (c.bindings.find (IpBinding.matches cident isStatic status) c.calls c.bindings.first).map fun p =>
      ((c.bindings, p), c.indexes)
  | .removeBinding cident isStatic status => do
    let binding ← c.bindings.find (IpBinding.matches cident isStatic status) c.calls c.bindings.first
    return ((← removeBindingLinks c.bindings binding, none), c.indexes)
  | .updateBindingsStatuses now =>
    (updateBindingsLinks now c.calls c.bindings).map fun h => ((h, none), c.indexes)
  | .cleanupExpiredBindings => (cleanupExpiredLinks c.calls c.bindings).map fun h => ((h, none), c.indexes)
  | .newDynamicBinding address cident now callocOk =>
    newDynamicBindingLinks c.bindings c.calls e.block c.indexes address cident now callocOk

def manageLinks : Machine LinkedPool LinkedCall (Option (Nat × IpBinding)) := fun c e => do
  let ((h, p), indexes) ← callLinks c e
  return (⟨indexes, h, c.calls + 1⟩, ← answerLinks h p)

/-! ## Call by call -/

/-- The nodes are the bindings of the list, and the pointer returned leads to one of them; or both read
through `NULL`. -/
inductive Computes (most : Nat) :
    Option ((Links IpBinding × Option Nat) × IpPoolInd) → Option (ManagedPool × Option IpBinding) → Prop where
  | returned {h : Links IpBinding} {xs : List (Nat × IpBinding)} {list : BindingList} {indexes : IpPoolInd}
      {answer : Option (Nat × IpBinding)} (lists : Lists h xs) (values : xs.map Prod.snd = list)
      (few : xs.length ≤ most) (listed : ∀ x ∈ answer, x ∈ xs) :
      Computes most (some ((h, answer.map Prod.fst), indexes)) (some (⟨indexes, list⟩, answer.map Prod.snd))
  | nullRead : Computes most none none

section Calls
variable {h : Links IpBinding} {xs : List (Nat × IpBinding)} {fuel most block : Nat} {indexes : IpPoolInd}
  {address : BitVec 32} {cident : ClientIdent} {isStatic : Assignment} {status : BindingStatus} {now : Int}
  {callocOk : Bool}

theorem addBindingLinks_computes (lists : Lists h xs) (few : xs.length < most)
    (free : callocOk = true → h.nodes block = none) :
    Computes most ((addBindingLinks h block address cident isStatic now callocOk).map fun r => (r, indexes))
      (some (⟨indexes, (addBinding (xs.map Prod.snd) address cident isStatic now callocOk).bindings⟩,
        (addBinding (xs.map Prod.snd) address cident isStatic now callocOk).binding.map
          (addBinding (xs.map Prod.snd) address cident isStatic now callocOk).bindings.get)) := by
  cases callocOk with
  | false => exact @Computes.returned _ _ _ _ _ none lists rfl (Nat.le_of_lt few) nofun
  | true =>
    obtain ⟨h', inserted, lists'⟩ := lists.insertHead (free rfl)
      { address := address, cident := cident, bindingTime := now, leaseTime := 0, status := .pending,
        isStatic := isStatic }
    have added : addBindingLinks h block address cident isStatic now true = some (h', some block) := by
      rw [addBindingLinks, if_neg (by decide)]
      exact congrArg (Option.map fun h => (h, some block)) inserted
    rw [added]
    refine @Computes.returned _ _ _ _ _ (some (block, _)) lists' rfl few ?_
    rintro _ ⟨⟩
    exact List.mem_cons_self

/-- The pointer to a binding that is looked for. -/
theorem search_computes (lists : Lists h xs) (few : xs.length ≤ fuel) (enough : xs.length ≤ most) :
    Computes most
      ((h.find (IpBinding.matches cident isStatic status) fuel h.first).map fun p => ((h, p), indexes))
      (some (⟨indexes, xs.map Prod.snd⟩,
        (searchBinding (xs.map Prod.snd) cident isStatic status).map (xs.map Prod.snd).get)) := by
  rcases lists.toRepresents.find_cases few (IpBinding.matches cident isStatic status) with
    ⟨failed, none⟩ | ⟨front, p, v, back, i, rfl, found, searched, -, value⟩
  · rw [failed, searchBinding, none]
    exact @Computes.returned _ _ _ _ _ Option.none lists rfl enough nofun
  · rw [found, searchBinding, searched, Option.map_some, Option.map_some, value]
    refine @Computes.returned _ _ _ _ _ (some (p, v)) lists rfl enough ?_
    rintro _ ⟨⟩
    exact List.mem_append_right _ List.mem_cons_self

/-- A loop that changes each binding by itself, or removes it. -/
theorem traverse_computes (lists : Lists h xs) (few : xs.length ≤ fuel) (enough : xs.length ≤ most)
    (f : IpBinding → Option IpBinding) :
    Computes most ((h.foreachSafe (Links.edit f) fuel h.first).map fun h => ((h, none), indexes))
      (some (⟨indexes, (xs.map Prod.snd).filterMap f⟩, none)) := by
  obtain ⟨h', ran, lists'⟩ := lists.traverse few f
  rw [ran]
  refine @Computes.returned _ _ _ _ _ none lists' ?_ (Nat.le_trans (List.length_filterMap_le _ _) enough) nofun
  rw [List.map_filterMap, List.filterMap_map]
  congr 1
  funext x
  rw [edited, Option.map_map]
  exact Option.map_id'

theorem remove_computes (lists : Lists h xs) (few : xs.length ≤ fuel) (enough : xs.length ≤ most) :
    Computes most
      (((h.find (IpBinding.matches cident isStatic status) fuel h.first).bind (removeBindingLinks h)).map
        fun h => ((h, none), indexes))
      (manage ⟨indexes, xs.map Prod.snd⟩ (.removeBinding cident isStatic status)) := by
  unfold manage
  dsimp only
  rcases lists.toRepresents.find_cases few (IpBinding.matches cident isStatic status) with
    ⟨failed, none⟩ | ⟨front, p, v, back, i, rfl, found, searched, index, -⟩
  · rw [failed, searchBinding, none]
    exact @Computes.returned _ _ _ _ _ Option.none lists rfl enough nofun
  · obtain ⟨h', removed, lists'⟩ := lists.remove
    rw [found, Option.bind_some, removeBindingLinks, removed, searchBinding, searched]
    refine @Computes.returned _ _ _ _ _ none lists' ?_ (Nat.le_trans ?_ enough) nofun
    · rw [removeBinding, index.trans (List.length_map _).symm, List.map_append, List.map_append, List.map_cons,
        eraseIdx_split]
    · exact (remove_sublist front (p, v) back).length_le

/-! ### `new_dynamic_binding` -/

/-- The node that holds the requested address: the last one with it. -/
def holderNode (xs : List (Nat × IpBinding)) (address : BitVec 32) : Option (Nat × IpBinding) :=
  if address ≠ 0#32 then (xs.filter fun x => decide (x.2.address = address)).getLast? else none

theorem holderNode_mem {x : Nat × IpBinding} (holds : x ∈ holderNode xs address) : x ∈ xs := by
  unfold holderNode at holds
  split at holds
  · exact (List.mem_filter.mp (List.mem_of_getLast? holds)).1
  · cases holds

theorem holderNode_value : (holderNode xs address).map Prod.snd = holderOf (xs.map Prod.snd) address := by
  unfold holderNode holderOf
  split
  · rw [List.filter_map, List.getLast?_map]
    rfl
  · rfl

theorem foundBindingLinks_eq (represents : Represents h xs) (few : xs.length ≤ fuel) :
    foundBindingLinks h fuel address = some ((holderNode xs address).map Prod.fst) := by
  unfold foundBindingLinks holderNode
  split
  · have turn : ∀ found, ∀ x ∈ xs, (do
        if (← h.read (some x.1) IpBinding.address) = address then return some x.1 else return found) =
        some (if decide (x.2.address = address) then some x.1 else found) := by
      intro found x listed
      rw [represents.read listed]
      simp only [Option.bind_eq_bind, Option.bind_some, decide_eq_true_eq]
      split <;> rfl
    rw [represents.foldM few, foldlM_total turn, foldl_last_kept, Option.or_none]
  · rfl

theorem endedLinks_eq (represents : Represents h xs) {found : Option (Nat × IpBinding)}
    (listed : ∀ x ∈ found, x ∈ xs) : endedLinks h (found.map Prod.fst) = found.map fun x => x.2.status.ended := by
  cases found with
  | none => rfl
  | some x =>
    rw [endedLinks, Option.map_some, represents.read (listed x rfl), Option.map_some, BindingStatus.ended]
    simp only [Option.bind_eq_bind, Option.bind_some]
    cases x.2.status != .pending <;> rfl

theorem reusableLinks_eq (represents : Represents h xs) {found : Option (Nat × IpBinding)}
    (listed : ∀ x ∈ found, x ∈ xs) : reusableLinks h (found.map Prod.fst) = some (found.any fun x => x.2.reusable) := by
  have ended := endedLinks_eq represents listed
  cases found with
  | none => rfl
  | some x =>
    rw [Option.map_some] at ended ⊢
    rw [reusableLinks, represents.read (listed x rfl), ended, Option.any_some, IpBinding.reusable]
    simp only [Option.bind_eq_bind, Option.bind_some]
    cases x.2.isStatic == .dynamic <;> rfl

theorem anyDynamicLinks_eq (represents : Represents h xs) (few : xs.length ≤ fuel) {found : Option (Nat × IpBinding)}
    (listed : ∀ x ∈ found, x ∈ xs) : anyDynamicLinks h fuel (found.map Prod.fst) =
      (xs.find? fun x => x.2.isStatic == .dynamic).elim (some none) fun x =>
        (found.map fun y => y.2.status.ended).map fun passes => if passes then some x.1 else none := by
  rw [anyDynamicLinks, represents.findM few]
  refine findM_second fun x member => ?_
  rw [represents.read member, endedLinks_eq represents listed]
  rfl

/-- The last loop on the list: the first dynamic binding, if the holder lets it through. -/
theorem anyDynamic_value {list : BindingList} :
    (anyDynamic list (foundBinding list address)).map (Option.map list.get) =
      (firstDynamic list).elim (some none) fun c => (holderOf list address).map fun b =>
        if b.status.ended then some c else none := by
  have first : firstDynamic list = (list.findFinIdx? fun b => b.isStatic == .dynamic).map list.get :=
    List.find?_eq_map_findFinIdx?_getElem
  rw [first, ← foundBinding_map]
  unfold anyDynamic
  cases list.findFinIdx? (fun b => b.isStatic == .dynamic) with
  | none => rfl
  | some c =>
    cases foundBinding list address with
    | none => rfl
    | some b =>
      simp only [Option.map_some, Option.elim_some]
      split <;> rfl

/-- The list's function does not return when the last loop comes to a dynamic binding without a holder. -/
theorem newDynamicBinding_eq_none_iff {list : BindingList} :
    newDynamicBinding list indexes address cident now callocOk = none ↔
      indexes.Exhausted ∧ holderOf list address = none ∧ ∃ b ∈ list, b.isStatic = .dynamic := by
  rcases @reusable_or_busy list address with ⟨b, found, reusable⟩ | busy
  · rw [newDynamicBinding_holder found reusable, holderOf_eq found]
    exact iff_of_false nofun fun reads => nomatch reads.2.1
  by_cases exhausted : indexes.Exhausted
  · have someDynamic : firstDynamic list ≠ none ↔ ∃ b ∈ list, b.isStatic = .dynamic := by
      rw [firstDynamic, Ne, List.find?_eq_none]
      simp
    have value := @anyDynamic_value address list
    rw [newDynamicBinding_exhausted busy exhausted, and_iff_right exhausted, Option.map_eq_none_iff,
      ← Option.map_eq_none_iff (f := Option.map list.get), value, ← someDynamic]
    cases firstDynamic list with
    | none => exact iff_of_false nofun fun reads => reads.2 rfl
    | some c =>
      rw [Option.elim_some, Option.map_eq_none_iff]
      exact (and_iff_left nofun).symm
  · rw [newDynamicBinding_room busy exhausted]
    exact iff_of_false nofun fun reads => exhausted reads.1

/-- The first dynamic binding is returned, or none, or the status of no binding is read. -/
theorem lastLoop_computes (lists : Lists h xs) (enough : xs.length ≤ most) :
    Computes most
      (((xs.find? fun x => x.2.isStatic == .dynamic).elim (some none) fun x =>
        ((holderNode xs address).map fun y => y.2.status.ended).map fun passes =>
          if passes then some x.1 else none).bind fun p => some ((h, p), indexes))
      (((anyDynamic (xs.map Prod.snd) (foundBinding (xs.map Prod.snd) address)).map fun b =>
        ((⟨xs.map Prod.snd, b⟩ : Pointed), indexes)).map fun r =>
          (⟨r.2, r.1.bindings⟩, r.1.binding.map r.1.bindings.get)) := by
  have values : ((anyDynamic (xs.map Prod.snd) (foundBinding (xs.map Prod.snd) address)).map fun b =>
      ((⟨xs.map Prod.snd, b⟩ : Pointed), indexes)).map (fun r =>
        ((⟨r.2, r.1.bindings⟩ : ManagedPool), r.1.binding.map r.1.bindings.get)) =
      ((anyDynamic (xs.map Prod.snd) (foundBinding (xs.map Prod.snd) address)).map
        (Option.map (xs.map Prod.snd).get)).map fun answer => (⟨indexes, xs.map Prod.snd⟩, answer) := by
    rw [Option.map_map, Option.map_map]
    rfl
  rw [values, anyDynamic_value, ← holderNode_value, firstDynamic, List.find?_map]
  cases first : xs.find? fun x => x.2.isStatic == .dynamic with
  | none =>
    rw [show xs.find? ((fun b : IpBinding => b.isStatic == .dynamic) ∘ Prod.snd) = none from first]
    exact @Computes.returned _ _ _ _ _ none lists rfl enough nofun
  | some x =>
    rw [show xs.find? ((fun b : IpBinding => b.isStatic == .dynamic) ∘ Prod.snd) = some x from first]
    cases holderNode xs address with
    | none => exact .nullRead
    | some y =>
      simp only [Option.elim_some, Option.map_some, Option.bind_some]
      cases y.2.status.ended with
      | true =>
        refine @Computes.returned _ _ _ _ _ (some x) lists rfl enough ?_
        rintro _ ⟨⟩
        exact List.mem_of_find?_eq_some first
      | false => exact @Computes.returned _ _ _ _ _ none lists rfl enough nofun

theorem newDynamicBindingLinks_computes (lists : Lists h xs) (few : xs.length ≤ fuel) (enough : xs.length < most)
    (free : callocOk = true → h.nodes block = none) :
    Computes most (newDynamicBindingLinks h fuel block indexes address cident now callocOk)
      (manage ⟨indexes, xs.map Prod.snd⟩ (.newDynamicBinding address cident now callocOk)) := by
  have found := @foundBindingLinks_eq _ _ _ address lists.toRepresents few
  have listed : ∀ x ∈ holderNode xs address, x ∈ xs := fun x => holderNode_mem
  have value := @holderNode_value xs address
  unfold newDynamicBindingLinks manage
  simp only [found, Option.bind_eq_bind, Option.bind_some, reusableLinks_eq lists.toRepresents listed]
  rcases @reusable_or_busy (xs.map Prod.snd) address with ⟨i, holds, reusable⟩ | busy
  · -- the holder is returned
    rw [newDynamicBinding_holder holds reusable, Option.map_some, Option.map_some]
    rw [holderOf_eq holds] at value
    obtain ⟨x, node, same⟩ := Option.map_eq_some_iff.mp value
    rw [node, Option.any_some, same, reusable, if_pos rfl, ← same]
    exact @Computes.returned _ _ _ _ _ (some x) lists rfl (Nat.le_of_lt enough) (node ▸ listed)
  · have unused : (holderNode xs address).any (fun x => x.2.reusable) = false := by
      rw [← value] at busy
      cases node : holderNode xs address with
      | none => rfl
      | some x => exact busy x.2 (by rw [node]; rfl)
    rw [unused, if_neg Bool.false_ne_true]
    by_cases exhausted : indexes.Exhausted
    · rw [newDynamicBinding_exhausted busy exhausted, takeFreeAddress_exhausted exhausted, if_neg (fun no => no rfl),
        anyDynamicLinks_eq lists.toRepresents few listed]
      exact lastLoop_computes lists (Nat.le_of_lt enough)
    · obtain ⟨taken, nonzero⟩ := takeFreeAddress_room exhausted
      have added := @addBindingLinks_computes h xs most block (takeFreeAddress indexes).2 indexes.ipCurrent cident
        .dynamic now callocOk lists enough free
      rw [Option.map_eq_bind] at added
      rw [newDynamicBinding_room busy exhausted, taken, if_pos nonzero]
      exact added

end Calls

/-! ## Run by run -/

/-- The nodes are the bindings of the list, no more than there were calls. -/
structure Manages (c : LinkedPool) (s : ManagedPool) : Prop where
  indexes : c.indexes = s.indexes
  bindings : ∃ xs, Lists c.bindings xs ∧ xs.map Prod.snd = s.bindings ∧ xs.length ≤ c.calls

/-- Whether the call succeeds with `calloc` if it comes to it. -/
def PoolCall.callocOk : PoolCall → Bool
  | .addBinding _ _ _ _ callocOk => callocOk
  | .searchBinding _ _ _ => false
  | .removeBinding _ _ _ => false
  | .updateBindingsStatuses _ => false
  | .cleanupExpiredBindings => false
  | .newDynamicBinding _ _ _ callocOk => callocOk

/-- The block `calloc` answers with, if it does, is not in use. -/
def Callocates (c : LinkedPool) (e : LinkedCall) : Prop := e.call.callocOk = true → c.bindings.nodes e.block = none

/-- `new_dynamic_binding` reads the status of a binding that it has not found. -/
def ReadsNull (s : ManagedPool) (call : PoolCall) : Prop :=
  ∃ address cident now callocOk, call = .newDynamicBinding address cident now callocOk ∧ s.indexes.Exhausted ∧
    holderOf s.bindings address = none ∧ ∃ b ∈ s.bindings, b.isStatic = .dynamic

section Manager
variable {c : LinkedPool} {s : ManagedPool} {e : LinkedCall}

theorem callLinks_computes (manages : Manages c s) (free : Callocates c e) :
    Computes (c.calls + 1) (callLinks c e) (manage s e.call) := by
  obtain ⟨indexes, list⟩ := s
  obtain ⟨rfl, xs, lists, rfl, few⟩ := manages
  obtain ⟨call, block⟩ := e
  have enough := Nat.le_succ_of_le few
  cases call with
  | addBinding address cident isStatic now callocOk =>
    exact addBindingLinks_computes lists (Nat.lt_succ_of_le few) free
  | searchBinding cident isStatic status => exact search_computes lists few enough
  | removeBinding cident isStatic status =>
    have removed := @remove_computes _ _ _ _ c.indexes cident isStatic status lists few enough
    rw [Option.map_eq_bind, Option.bind_assoc] at removed
    exact removed
  | updateBindingsStatuses now =>
    have updated := @traverse_computes _ _ _ _ c.indexes lists few enough fun b => some (b.age now)
    rw [List.filterMap_eq_map'] at updated
    unfold manage
    dsimp only
    rw [updateBindingsStatuses_eq_map]
    exact updated
  | cleanupExpiredBindings =>
    unfold manage
    dsimp only
    rw [cleanupExpiredBindings_eq_filterMap]
    exact traverse_computes lists few enough IpBinding.cleanup
  | newDynamicBinding address cident now callocOk =>
    exact newDynamicBindingLinks_computes lists few (Nat.lt_succ_of_le few) free

/-- **A call on nodes** returns when the call on the list does, with the pointer to the same binding. -/
theorem manageLinks_agrees (manages : Manages c s) (free : Callocates c e) :
    (manageLinks c e = none ∧ manage s e.call = none) ∨ ∃ c' s' answer, manageLinks c e = some (c', answer) ∧
      manage s e.call = some (s', answer.map Prod.snd) ∧ Manages c' s' := by
  have computes := callLinks_computes manages free
  unfold manageLinks
  generalize callLinks c e = linked at computes
  generalize manage s e.call = listed at computes
  cases computes with
  | nullRead => exact Or.inl ⟨rfl, rfl⟩
  | @returned h xs list indexes answer lists values few leads =>
    have answered : answerLinks h (answer.map Prod.fst) = some answer := by
      cases answer with
      | none => rfl
      | some x =>
        obtain ⟨front, back, rfl⟩ := List.append_of_mem (leads x rfl)
        rw [Option.map_some, answerLinks, lists.toRepresents.node]
        rfl
    refine Or.inr ⟨⟨indexes, h, c.calls + 1⟩, ⟨indexes, list⟩, answer, ?_, rfl, rfl, xs, lists, values, few⟩
    simp only [Option.bind_eq_bind, Option.bind_some, answered]
    rfl

/-- The one place where the list's functions do not return. -/
theorem manage_eq_none_iff {call : PoolCall} : manage s call = none ↔ ReadsNull s call := by
  cases call with
  | removeBinding cident isStatic status =>
    have returns : manage s (.removeBinding cident isStatic status) ≠ none := by
      unfold manage
      dsimp only
      cases searchBinding s.bindings cident isStatic status <;> nofun
    exact iff_of_false returns (by rintro ⟨_, _, _, _, ⟨⟩, _⟩)
  | newDynamicBinding address cident now callocOk =>
    unfold manage
    dsimp only
    rw [Option.map_eq_none_iff, newDynamicBinding_eq_none_iff]
    constructor
    · exact fun reads => ⟨address, cident, now, callocOk, rfl, reads⟩
    · rintro ⟨_, _, _, _, ⟨⟩, reads⟩
      exact reads
  | _ => exact iff_of_false nofun (by rintro ⟨_, _, _, _, ⟨⟩, _⟩)

/-- A call on nodes, as the list's. -/
def unlinkedCall (e : LinkedCall × Option (Nat × IpBinding)) : Option (PoolCall × Option IpBinding) :=
  some (e.1.call, e.2.map Prod.snd)

theorem manager_simulation : Simulation manage manageLinks unlinkedCall (fun s c => Manages c s) Callocates where
  follows := by
    intro s c e c' answer manages free stepped
    rcases manageLinks_agrees manages free with ⟨stuck, -⟩ | ⟨d, s', answer', linked, listed, manages'⟩
    · rw [stuck] at stepped
      cases stepped
    · rw [linked] at stepped
      cases stepped
      exact ⟨s', listed, manages'⟩

end Manager

/-- **The pool manager on nodes is the pool manager on a list**, whichever calls there are and whichever free
blocks `calloc` answers with: the pointers returned lead to the bindings the list's functions return, no function
looks at a binding that was freed, and the only read through `NULL` is the one of `new_dynamic_binding` when no
address is left, nobody holds the requested one, and there is a dynamic binding. -/
theorem pool_manager_refines {indexes : IpPoolInd} {h : List (LinkedCall × Option (Nat × IpBinding))} {c : LinkedPool}
    (run : Run manageLinks ⟨indexes, Links.empty, 0⟩ h c)
    (allocates : EachStep manageLinks ⟨indexes, Links.empty, 0⟩ h Callocates) :
    ∃ s, Run manage ⟨indexes, []⟩ (h.map fun e => (e.1.call, e.2.map Prod.snd)) s ∧ Manages c s ∧
      ∀ e, Callocates c e → (manageLinks c e = none ↔ ReadsNull s e.call) := by
  have empty : Manages ⟨indexes, Links.empty, 0⟩ ⟨indexes, []⟩ := ⟨rfl, [], .empty, rfl, Nat.le_refl 0⟩
  obtain ⟨s, run', manages⟩ := run.simulated manager_simulation empty allocates
  refine ⟨s, ?_, manages, fun e free => ?_⟩
  · rwa [emitted, show unlinkedCall = some ∘ fun e => (e.1.call, e.2.map Prod.snd) from rfl,
      List.filterMap_eq_map] at run'
  · rw [← manage_eq_none_iff]
    rcases manageLinks_agrees manages free with ⟨stuck, stuck'⟩ | ⟨d, s', answer', linked, listed, -⟩
    · exact iff_of_true stuck stuck'
    · rw [linked, listed]
      exact iff_of_false (Option.some_ne_none _) (Option.some_ne_none _)

/-- A reservation is swept, and its block is used again for the binding of another client. -/
theorem pool_manager_refines_swept_block : ∃ (h : List (LinkedCall × Option (Nat × IpBinding))) (c : LinkedPool)
    (s : ManagedPool), h.map Prod.fst = [⟨.newDynamicBinding 0#32 (discover macB).turn.ident 3601 true, 7⟩,
      ⟨.cleanupExpiredBindings, 0⟩, ⟨.updateBindingsStatuses 3601, 0⟩,
      ⟨.addBinding 0xC0A80105#32 (discover macA).turn.ident .static 0 true, 7⟩] ∧
    Run manage ⟨lanPool, []⟩ (h.map fun e => (e.1.call, e.2.map Prod.snd)) s ∧ Manages c s ∧
    (∀ e, Callocates c e → (manageLinks c e = none ↔ ReadsNull s e.call)) ∧ c.bindings.first = some 7 := by
  obtain ⟨c, h, guarded, inputs, check⟩ := @Run.of_check _ _ _
    (guarded (fun (c : LinkedPool) (e : LinkedCall) => (c.bindings.nodes e.block).isNone) manageLinks)
    ⟨lanPool, Links.empty, 0⟩
    [⟨.addBinding 0xC0A80105#32 (discover macA).turn.ident .static 0 true, 7⟩, ⟨.updateBindingsStatuses 3601, 0⟩,
      ⟨.cleanupExpiredBindings, 0⟩, ⟨.newDynamicBinding 0#32 (discover macB).turn.ident 3601 true, 7⟩]
    (fun c _ => c.bindings.first == some 7) (by decide)
  obtain ⟨run, each⟩ := guarded.of_guarded
  obtain ⟨s, run', manages, stuck⟩ := pool_manager_refines run
    (each.imp fun _ _ passes _ => Option.isNone_iff_eq_none.mp passes)
  exact ⟨h, c, s, inputs, run', manages, stuck, eq_of_beq check⟩

end DhcpServer
