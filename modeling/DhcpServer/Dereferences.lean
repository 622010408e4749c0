import DhcpServer.Lib.PointerProg
import DhcpServer.Recycling

/-!
# The reads of `new_dynamic_binding`

The function once more, with every read of a field. The last loop reads through `found_binding` instead of
through `binding`, and unlike the test before it does not ask whether there is one.
-/

namespace DhcpServer
set_option autoImplicit false
open Lib

/-- A program that reads the bindings of the list. -/
abbrev BindingProg (list : BindingList) (α : Type) : Type := PointerProg (Fin list.length) IpBinding α

section Reads
variable {list : BindingList}

/-- `binding->status != PENDING && binding->status != ASSOCIATED` -/
def readEnded (binding : Option (Fin list.length)) : BindingProg list Bool := do
  if (← .read binding IpBinding.status) != .pending then
    return (← .read binding IpBinding.status) != .associated
  else
    return false

/-- `found_binding!=NULL && !found_binding->is_static && …` -/
def readReusable (foundBinding : Option (Fin list.length)) : BindingProg list Bool := do
  if foundBinding.isSome then
    if (← .read foundBinding IpBinding.isStatic) == .dynamic then
      readEnded foundBinding
    else
      return false
  else
    return false

/-- `!binding->is_static && found_binding->status != PENDING && …` -/
def readPasses (foundBinding : Option (Fin list.length)) (binding : Fin list.length) : BindingProg list Bool := do
  if (← .read (some binding) IpBinding.isStatic) == .dynamic then readEnded foundBinding else return false

end Reads

/-- The loop for the requested address. -/
def readFound (list : BindingList) (address : BitVec 32) : BindingProg list (Option (Fin list.length)) := do
  if address ≠ 0#32 then
    (List.finRange list.length).foldlM (fun found binding => do
      if (← .read (some binding) IpBinding.address) = address then return some binding else return found) none
  else
    return none

/-- The last loop. -/
def readAnyDynamic (list : BindingList) (found : Option (Fin list.length)) :
    BindingProg list (Option (Fin list.length)) :=
  (List.finRange list.length).findM? (readPasses found)

/-- `new_dynamic_binding`, read by read. -/
def readNewDynamicBinding (list : BindingList) (indexes : IpPoolInd) (address : BitVec 32) (cident : ClientIdent)
    (now : Int) (callocOk : Bool) : BindingProg list (Pointed × IpPoolInd) := do
  let found ← readFound list address
  if ← readReusable found then
    return (⟨list, found⟩, indexes)
  else
    let (newAddress, indexes) := takeFreeAddress indexes
    if newAddress ≠ 0#32 then
      return (addBinding list newAddress cident .dynamic now callocOk, indexes)
    else
      return (⟨list, ← readAnyDynamic list found⟩, indexes)

/-- Whatever `new_dynamic_binding` reads through points to a binding of the list. -/
def DereferencesBindings (list : BindingList) (indexes : IpPoolInd) (address : BitVec 32) (cident : ClientIdent)
    (now : Int) (callocOk : Bool) : Prop :=
  ∀ pointer ∈ (readNewDynamicBinding list indexes address cident now callocOk).derefs list.get,
    ∃ binding, pointer = some binding ∧ list.get binding ∈ list

section Run
variable {list : BindingList} {indexes : IpPoolInd} {address : BitVec 32} {cident : ClientIdent} {now : Int}
  {callocOk : Bool}

theorem run_readEnded (binding : Option (Fin list.length)) :
    (readEnded binding).run list.get = binding.map fun b => (list.get b).status.ended := by
  cases binding with
  | none => rfl
  | some b =>
    rw [readEnded, PointerProg.run_bind, PointerProg.run_read, Option.map_some, Option.bind_some, Option.map_some,
      BindingStatus.ended]
    cases (list.get b).status != .pending <;> rfl

theorem run_readReusable (found : Option (Fin list.length)) :
    (readReusable found).run list.get = some (found.any fun b => (list.get b).reusable) := by
  cases found with
  | none => rfl
  | some b =>
    rw [readReusable, if_pos Option.isSome_some, PointerProg.run_bind, PointerProg.run_read, Option.map_some,
      Option.bind_some, Option.any_some, IpBinding.reusable]
    cases (list.get b).isStatic == .dynamic with
    | false => rfl
    | true => exact run_readEnded (some b)

theorem run_readPasses (found : Option (Fin list.length)) (binding : Fin list.length) :
    (readPasses found binding).run list.get =
      if (list.get binding).isStatic == .dynamic then found.map fun b => (list.get b).status.ended else some false := by
  rw [readPasses, PointerProg.run_bind, PointerProg.run_read, Option.map_some, Option.bind_some]
  split
  · exact run_readEnded found
  · rfl

theorem run_readFound : (readFound list address).run list.get = some (foundBinding list address) := by
  unfold readFound foundBinding
  split
  · refine PointerProg.run_foldlM (fun found binding => ?_) _ _
    rw [PointerProg.run_bind, PointerProg.run_read, Option.map_some, Option.bind_some]
    split <;> rfl
  · rfl

theorem run_readAnyDynamic (found : Option (Fin list.length)) :
    (readAnyDynamic list found).run list.get = anyDynamic list found := by
  rw [readAnyDynamic, PointerProg.run_findM (run_readPasses found),
    find_finRange (p := fun b : IpBinding => b.isStatic == .dynamic)]
  unfold anyDynamic
  cases list.findFinIdx? fun b => b.isStatic == .dynamic with
  | none => rfl
  | some binding =>
    cases found with
    | none => rfl
    | some b => exact apply_ite some _ _ _

/-- The reads leave the function as it is. -/
theorem run_readNewDynamicBinding : (readNewDynamicBinding list indexes address cident now callocOk).run list.get =
    newDynamicBinding list indexes address cident now callocOk := by
  rw [readNewDynamicBinding, PointerProg.run_bind, run_readFound, Option.bind_some, PointerProg.run_bind,
    run_readReusable, Option.bind_some]
  unfold newDynamicBinding
  generalize foundBinding list address = found
  -- without a binding to reuse both go on in the same way
  have fresh : PointerProg.run list.get (do
        let (newAddress, indexes) := takeFreeAddress indexes
        if newAddress ≠ 0#32 then
          return (addBinding list newAddress cident .dynamic now callocOk, indexes)
        else
          return (⟨list, ← readAnyDynamic list found⟩, indexes)) =
      if (takeFreeAddress indexes).1 ≠ 0#32 then
        some (addBinding list (takeFreeAddress indexes).1 cident .dynamic now callocOk, (takeFreeAddress indexes).2)
      else
        (anyDynamic list found).map fun binding => (⟨list, binding⟩, (takeFreeAddress indexes).2) := by
    dsimp only
    split
    · rfl
    · rw [PointerProg.run_bind, run_readAnyDynamic]
      exact (Option.map_eq_bind ..).symm
  cases found with
  | none => exact fresh
  | some b =>
    simp only [Option.any_some, Option.filter_some]
    cases (list.get b).reusable with
    | true => rfl
    | false => exact fresh

/-- The reads are fine exactly when the function has a result. -/
theorem dereferencesBindings_iff_isSome : DereferencesBindings list indexes address cident now callocOk ↔
    (newDynamicBinding list indexes address cident now callocOk).isSome = true := by
  rw [← run_readNewDynamicBinding, PointerProg.run_isSome_iff]
  refine forall₂_congr fun pointer _ => ?_
  rw [Option.isSome_iff_exists]
  exact exists_congr fun binding => and_iff_left (List.get_mem list binding)

/-! ## When there is a binding to read -/

theorem foundBinding_isSome : (foundBinding list address).isSome = true ↔
    address ≠ 0#32 ∧ ∃ b ∈ list, b.address = address := by
  rw [← Option.isSome_map (f := list.get), foundBinding_map, holderOf]
  split
  · rename_i requested
    rw [and_iff_right requested, List.getLast?_isSome]
    constructor
    · intro nonempty
      obtain ⟨b, member⟩ := List.exists_mem_of_ne_nil _ nonempty
      rw [List.mem_filter, decide_eq_true_eq] at member
      exact ⟨b, member⟩
    · rintro ⟨b, member, same⟩
      exact List.ne_nil_of_mem (List.mem_filter.mpr ⟨member, decide_eq_true same⟩)
  · rename_i unrequested
    exact iff_of_false Bool.false_ne_true fun h => unrequested h.1

theorem anyDynamic_isSome (found : Option (Fin list.length)) : (anyDynamic list found).isSome = true ↔
    found.isSome = true ∨ ∀ b ∈ list, b.isStatic ≠ .dynamic := by
  unfold anyDynamic
  cases search : list.findFinIdx? fun b => b.isStatic == .dynamic with
  | none =>
    refine iff_of_true rfl (Or.inr fun b member => ?_)
    exact beq_eq_false_iff_ne.mp (findFin_none.mp search b member)
  | some binding =>
    obtain ⟨-, -, -, -, dynamic, -⟩ := findFin_split search
    have someDynamic : ¬ ∀ b ∈ list, b.isStatic ≠ .dynamic := fun each =>
      each _ (List.get_mem list binding) (beq_iff_eq.mp dynamic)
    rw [or_iff_left someDynamic]
    cases found with
    | none => rfl
    | some b =>
      refine iff_of_true ?_ rfl
      dsimp only
      split <;> rfl

end Run

/-- **When `new_dynamic_binding` reads bindings only**: when the requested address is one of the list, or an
address is left, or there is no dynamic binding. -/
theorem dereferences_bindings_iff (list : BindingList) (indexes : IpPoolInd) (address : BitVec 32)
    (cident : ClientIdent) (now : Int) (callocOk : Bool) :
    DereferencesBindings list indexes address cident now callocOk ↔
      (address ≠ 0#32 ∧ ∃ b ∈ list, b.address = address) ∨ ¬ indexes.Exhausted ∨
        ∀ b ∈ list, b.isStatic ≠ .dynamic := by
  rw [dereferencesBindings_iff_isSome, ← foundBinding_isSome]
  rcases @reusable_or_busy list address with ⟨b, found, reusable⟩ | busy
  · rw [newDynamicBinding_holder found reusable, found]
    exact iff_of_true rfl (Or.inl rfl)
  by_cases exhausted : indexes.Exhausted
  · rw [newDynamicBinding_exhausted busy exhausted, Option.isSome_map, anyDynamic_isSome,
      or_iff_right (not_not.mpr exhausted)]
  · rw [newDynamicBinding_room busy exhausted]
    exact iff_of_true rfl (Or.inr (Or.inl exhausted))

/-- No address is requested or left, and a lease has expired: `found_binding` is `NULL` where its status is read. -/
theorem null_dereferenced :
    (readNewDynamicBinding [leasedBinding .expired] fullPool 0#32 (discover macB).turn.ident 0 true).derefs
        [leasedBinding .expired].get = [some 0, none] ∧
      ¬ DereferencesBindings [leasedBinding .expired] fullPool 0#32 (discover macB).turn.ident 0 true := by
  have derefs : (readNewDynamicBinding [leasedBinding .expired] fullPool 0#32 (discover macB).turn.ident 0
      true).derefs [leasedBinding .expired].get = [some 0, none] := rfl
  refine ⟨derefs, fun safe => ?_⟩
  rw [DereferencesBindings, derefs] at safe
  obtain ⟨_, ⟨⟩, _⟩ := safe none (by simp)

end DhcpServer
