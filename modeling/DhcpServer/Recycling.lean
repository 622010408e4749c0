import DhcpServer.DynamicBinding

/-!
# Recycled bindings (`new_dynamic_binding`)

When no address is left the last loop of `new_dynamic_binding` looks for a dynamic binding that has
ended, but tests the status of the binding found for the requested address. It does its work when that
status happens to be the one that counts.
-/

namespace DhcpServer
set_option autoImplicit false
open Lib

/-- `take_free_address` has none left. An address zero is none. -/
def IpPoolInd.Exhausted (indexes : IpPoolInd) : Prop :=
  indexes.ipLast < indexes.ipCurrent ∨ indexes.ipCurrent = 0#32

/-- The binding that holds the requested address: the last one with it. -/
def holderOf (list : BindingList) (address : BitVec 32) : Option IpBinding :=
  if address ≠ 0#32 then (list.filter fun b => decide (b.address = address)).getLast? else none

/-- The first dynamic binding. -/
def firstDynamic (list : BindingList) : Option IpBinding := list.find? fun b => b.isStatic == .dynamic

section Call
variable (list : BindingList) (indexes : IpPoolInd) (address : BitVec 32) (cident : ClientIdent) (now : Int)
  (callocOk : Bool)

/-- No binding in use is handed out: what is returned is new, or was in the list, dynamic and ended.
And one that can be recycled is found when no address is left. -/
structure HandsOutIdle : Prop where
  idle : ∀ r b, newDynamicBinding list indexes address cident now callocOk = some r → r.1.binding = some b →
    (b.val = 0 ∧ r.1.bindings = r.1.bindings.get b :: list) ∨
      (r.1.bindings = list ∧ (r.1.bindings.get b).reusable = true)
  recycled : indexes.Exhausted → (∃ c ∈ list, c.reusable = true) →
    ∃ r, newDynamicBinding list indexes address cident now callocOk = some r ∧ r.1.binding.isSome = true

/-- The ways in which it turns out well. -/
inductive RecyclesSafely : Prop where
  /-- The binding that holds the address can be reused. -/
  | holder {b : IpBinding} (holds : holderOf list address = some b) (reusable : b.reusable = true)
  /-- An address is left. -/
  | room (room : ¬ indexes.Exhausted)
  /-- The holder has ended, so its status lets the first dynamic binding through, which has ended too. -/
  | first {b : IpBinding} (holds : holderOf list address = some b) (ended : b.status.ended = true)
      (first : ∀ c ∈ firstDynamic list, c.status.ended = true)
  /-- No status lets any binding through, and there is none to recycle. -/
  | idle (stops : ∀ b ∈ holderOf list address, b.status.ended = false) (none : ∀ c ∈ list, c.reusable = false)

end Call

section Found
variable {list : BindingList} {indexes : IpPoolInd} {address : BitVec 32}

theorem foundBinding_map : (foundBinding list address).map list.get = holderOf list address := by
  unfold foundBinding holderOf
  split
  · have last :=
      foldl_last (fun b : IpBinding => decide (b.address = address)) list.get (List.finRange list.length) none
    simp only [decide_eq_true_eq] at last
    rw [last, List.map_get_finRange, Option.map_none, Option.or_none]
  · rfl

theorem holderOf_eq {b : Fin list.length} (found : foundBinding list address = some b) :
    holderOf list address = some (list.get b) := by
  rw [← foundBinding_map, found]
  rfl

/-- Whether the holder is returned. -/
theorem reusable_or_busy : (∃ i, foundBinding list address = some i ∧ (list.get i).reusable = true) ∨
    ∀ b ∈ holderOf list address, b.reusable = false := by
  rw [← foundBinding_map]
  cases foundBinding list address with
  | none => exact Or.inr nofun
  | some i =>
    cases reusable : (list.get i).reusable with
    | true => exact Or.inl ⟨i, rfl, reusable⟩
    | false =>
      refine Or.inr ?_
      rintro _ ⟨⟩
      exact reusable

theorem takeFreeAddress_exhausted (exhausted : indexes.Exhausted) : (takeFreeAddress indexes).1 = 0#32 := by
  unfold takeFreeAddress
  rcases exhausted with past | zero
  · rw [if_neg (BitVec.not_le.mpr past)]
  · split
    · exact zero
    · rfl

theorem takeFreeAddress_room (room : ¬ indexes.Exhausted) :
    (takeFreeAddress indexes).1 = indexes.ipCurrent ∧ indexes.ipCurrent ≠ 0#32 := by
  obtain ⟨within, nonzero⟩ := not_or.mp room
  exact ⟨takeFreeAddress_eq (BitVec.not_lt.mp within), nonzero⟩

end Found

/-! ## What a call returns -/

section Cases
variable {list : BindingList} {indexes : IpPoolInd} {address : BitVec 32} {cident : ClientIdent} {now : Int}
  {callocOk : Bool}

theorem newDynamicBinding_holder {b : Fin list.length} (found : foundBinding list address = some b)
    (reusable : (list.get b).reusable = true) :
    newDynamicBinding list indexes address cident now callocOk = some (⟨list, some b⟩, indexes) := by
  have kept : (some b).filter (fun binding => (list.get binding).reusable) = some b := by
    rw [Option.filter_some, if_pos reusable]
  rw [newDynamicBinding, found]
  simp only [kept]

theorem filter_busy (busy : ∀ b ∈ holderOf list address, b.reusable = false) :
    (foundBinding list address).filter (fun b => (list.get b).reusable) = none := by
  rw [Option.filter_eq_none_iff]
  intro b found
  rw [busy _ (holderOf_eq found)]
  exact Bool.false_ne_true

theorem newDynamicBinding_room (busy : ∀ b ∈ holderOf list address, b.reusable = false)
    (room : ¬ indexes.Exhausted) : newDynamicBinding list indexes address cident now callocOk =
      some (addBinding list indexes.ipCurrent cident .dynamic now callocOk, (takeFreeAddress indexes).2) := by
  obtain ⟨taken, nonzero⟩ := takeFreeAddress_room room
  simp only [newDynamicBinding, filter_busy busy, taken, if_pos nonzero]

theorem newDynamicBinding_exhausted (busy : ∀ b ∈ holderOf list address, b.reusable = false)
    (exhausted : indexes.Exhausted) : newDynamicBinding list indexes address cident now callocOk =
      (anyDynamic list (foundBinding list address)).map fun b => (⟨list, b⟩, (takeFreeAddress indexes).2) := by
  have none := takeFreeAddress_exhausted exhausted
  simp only [newDynamicBinding, filter_busy busy, none, ne_eq, not_true_eq_false, if_false]

/-- A binding that could be added is the new one. -/
theorem addBinding_new {newAddress : BitVec 32} {isStatic : Assignment} {b}
    (added : (addBinding list newAddress cident isStatic now callocOk).binding = some b) : b.val = 0 ∧
      (addBinding list newAddress cident isStatic now callocOk).bindings =
        (addBinding list newAddress cident isStatic now callocOk).bindings.get b :: list := by
  cases callocOk with
  | false => cases added
  | true =>
    cases added
    exact ⟨rfl, rfl⟩

/-- Whether the last loop returns a binding: the first dynamic one, if the holder has ended. -/
theorem anyDynamic_cases : (∃ b c i, holderOf list address = some b ∧ b.status.ended = true ∧
      firstDynamic list = some c ∧ list.get i = c ∧ anyDynamic list (foundBinding list address) = some (some i)) ∨
    ((∀ i, anyDynamic list (foundBinding list address) ≠ some (some i)) ∧
      (firstDynamic list = none ∨ ∀ b ∈ holderOf list address, b.status.ended = false)) := by
  have first : firstDynamic list = (list.findFinIdx? fun b => b.isStatic == .dynamic).map list.get :=
    List.find?_eq_map_findFinIdx?_getElem
  have holder := @foundBinding_map list address
  rw [first, ← holder]
  unfold anyDynamic
  cases list.findFinIdx? (fun b => b.isStatic == .dynamic) with
  | none => exact Or.inr ⟨nofun, Or.inl rfl⟩
  | some i =>
    cases foundBinding list address with
    | none => exact Or.inr ⟨nofun, Or.inr nofun⟩
    | some b =>
      cases ended : (list.get b).status.ended with
      | true => exact Or.inl ⟨_, _, i, rfl, ended, rfl, rfl, if_pos ended⟩
      | false =>
        have stopped : (if (list.get b).status.ended then some (some i) else some none) = some none :=
          if_neg (by rw [ended]; exact Bool.false_ne_true)
        refine Or.inr ⟨fun j last => (nomatch stopped.symm.trans last), Or.inr ?_⟩
        rintro _ ⟨⟩
        exact ended

end Cases

section Safe
variable {list : BindingList} {indexes : IpPoolInd} {address : BitVec 32} {cident : ClientIdent} {now : Int}
  {callocOk : Bool}

theorem handsOutIdle_holder {i : Fin list.length} (found : foundBinding list address = some i)
    (reusable : (list.get i).reusable = true) : HandsOutIdle list indexes address cident now callocOk := by
  have call : newDynamicBinding list indexes address cident now callocOk = some (⟨list, some i⟩, indexes) :=
    newDynamicBinding_holder found reusable
  constructor
  · rintro r j returned binding
    obtain rfl := Option.some.inj (call.symm.trans returned)
    cases binding
    exact Or.inr ⟨rfl, reusable⟩
  · exact fun _ _ => ⟨_, call, rfl⟩

theorem handsOutIdle_room (busy : ∀ b ∈ holderOf list address, b.reusable = false) (room : ¬ indexes.Exhausted) :
    HandsOutIdle list indexes address cident now callocOk := by
  constructor
  · rintro r j returned binding
    obtain rfl := Option.some.inj ((newDynamicBinding_room busy room).symm.trans returned)
    exact Or.inl (addBinding_new binding)
  · exact fun exhausted _ => (room exhausted).elim

/-- Without an address left it is up to the last loop. -/
theorem handsOutIdle_exhausted (busy : ∀ b ∈ holderOf list address, b.reusable = false)
    (exhausted : indexes.Exhausted) : HandsOutIdle list indexes address cident now callocOk ↔
      (∀ i, anyDynamic list (foundBinding list address) = some (some i) → (list.get i).reusable = true) ∧
        ((∃ c ∈ list, c.reusable = true) →
          ∃ i, anyDynamic list (foundBinding list address) = some (some i)) := by
  have call : newDynamicBinding list indexes address cident now callocOk =
      (anyDynamic list (foundBinding list address)).map fun b => (⟨list, b⟩, (takeFreeAddress indexes).2) :=
    newDynamicBinding_exhausted busy exhausted
  constructor
  · intro safe
    constructor
    · intro i last
      rw [last] at call
      rcases safe.idle _ i call rfl with ⟨-, longer⟩ | ⟨-, reusable⟩
      · exact absurd (congrArg List.length longer) (Nat.ne_of_lt (Nat.lt_succ_self _))
      · exact reusable
    · intro candidate
      obtain ⟨r, returned, binding⟩ := safe.recycled exhausted candidate
      rw [call] at returned
      obtain ⟨b, last, rfl⟩ := Option.map_eq_some_iff.mp returned
      cases b with
      | none => cases binding
      | some i => exact ⟨i, last⟩
  · rintro ⟨idle, recycled⟩
    constructor
    · intro r i returned binding
      rw [call] at returned
      obtain ⟨b, last, rfl⟩ := Option.map_eq_some_iff.mp returned
      have same : b = some i := binding
      exact Or.inr ⟨rfl, idle i (last.trans (congrArg some same))⟩
    · intro _ candidate
      obtain ⟨i, last⟩ := recycled candidate
      rw [last] at call
      exact ⟨_, call, rfl⟩

end Safe

/-! ## When it turns out well -/

section Ways
variable {list : BindingList} {indexes : IpPoolInd} {address : BitVec 32} {b c : IpBinding}

theorem firstDynamic_reusable (first : firstDynamic list = some c) : c.reusable = c.status.ended := by
  have dynamic := @List.find?_some _ _ _ list first
  rw [IpBinding.reusable, dynamic, Bool.true_and]

theorem firstDynamic_none (none : firstDynamic list = none) (member : c ∈ list) : c.reusable = false := by
  have static : (c.isStatic == Assignment.dynamic) = false := by simpa using List.find?_eq_none.mp none c member
  rw [IpBinding.reusable, static, Bool.false_and]

/-- With the first dynamic binding let through, it has to have ended. -/
theorem recyclesSafely_through (busy : ∀ b ∈ holderOf list address, b.reusable = false)
    (exhausted : indexes.Exhausted) (holds : holderOf list address = some b) (ended : b.status.ended = true)
    (first : firstDynamic list = some c) : RecyclesSafely list indexes address ↔ c.reusable = true := by
  rw [firstDynamic_reusable first]
  constructor
  · intro safe
    cases safe with
    | holder holds' reusable => exact absurd (reusable.symm.trans (busy _ holds')) Bool.noConfusion
    | room left => exact (left exhausted).elim
    | first _ _ firstEnded => exact firstEnded c first
    | idle stops _ => exact absurd (ended.symm.trans (stops b holds)) Bool.noConfusion
  · intro firstEnded
    refine .first holds ended ?_
    rw [first]
    rintro _ ⟨⟩
    exact firstEnded

/-- With none let through, there must be none to recycle. -/
theorem recyclesSafely_stopped (busy : ∀ b ∈ holderOf list address, b.reusable = false)
    (exhausted : indexes.Exhausted)
    (why : firstDynamic list = none ∨ ∀ b ∈ holderOf list address, b.status.ended = false) :
    RecyclesSafely list indexes address ↔ ∀ c ∈ list, c.reusable = false := by
  constructor
  · intro safe
    cases safe with
    | holder holds reusable => exact absurd (reusable.symm.trans (busy _ holds)) Bool.noConfusion
    | room left => exact (left exhausted).elim
    | first holds ended _ =>
      rcases why with none | stops
      · exact fun c member => firstDynamic_none none member
      · exact absurd (ended.symm.trans (stops _ holds)) Bool.noConfusion
    | idle _ none => exact none
  · intro none
    by_cases stops : ∀ b ∈ holderOf list address, b.status.ended = false
    · exact .idle stops none
    · obtain ⟨b, holds, ended⟩ : ∃ b, holderOf list address = some b ∧ b.status.ended = true := by
        simpa using stops
      refine .first holds ended ?_
      rw [why.resolve_right stops]
      exact nofun

end Ways

/-- **When `new_dynamic_binding` hands out no binding in use and finds one to recycle.** -/
theorem handsOutIdle_iff (list : BindingList) (indexes : IpPoolInd) (address : BitVec 32) (cident : ClientIdent)
    (now : Int) (callocOk : Bool) :
    HandsOutIdle list indexes address cident now callocOk ↔ RecyclesSafely list indexes address := by
  rcases @reusable_or_busy list address with ⟨i, found, reusable⟩ | busy
  · exact iff_of_true (handsOutIdle_holder found reusable) (.holder (holderOf_eq found) reusable)
  by_cases exhausted : indexes.Exhausted
  · rw [handsOutIdle_exhausted busy exhausted]
    rcases @anyDynamic_cases list address with ⟨b, c, i, holds, ended, first, rfl, last⟩ | ⟨nothing, why⟩
    · rw [recyclesSafely_through busy exhausted holds ended first]
      constructor
      · exact fun safe => safe.1 i last
      · intro idle
        refine ⟨fun j same => ?_, fun _ => ⟨i, last⟩⟩
        obtain rfl := Option.some.inj (Option.some.inj (last.symm.trans same))
        exact idle
    · rw [recyclesSafely_stopped busy exhausted why]
      constructor
      · intro safe c member
        refine Bool.eq_false_iff.mpr fun idle => ?_
        obtain ⟨i, last⟩ := safe.2 ⟨c, member, idle⟩
        exact nothing i last
      · intro none
        refine ⟨fun i last => (nothing i last).elim, ?_⟩
        rintro ⟨c, member, idle⟩
        exact absurd (idle.symm.trans (none c member)) Bool.noConfusion
  · exact iff_of_true (handsOutIdle_room busy exhausted) (.room exhausted)

/-- `192.168.1.30` kept for a printer that has gone, and a lease. -/
def printerBinding : IpBinding := ⟨0xC0A8011E#32, (discover macB).turn.ident, 0, 0, .released, .static⟩

def leasedBinding (status : BindingStatus) : IpBinding :=
  ⟨0xC0A80110#32, (discover macA).turn.ident, 0, 7200, status, .dynamic⟩

/-- The network of `dhcp_config_file.txt` without an address left. -/
def fullPool : IpPoolInd := { lanPool with ipCurrent := 0xC0A80115#32 }

/-- With the printer's address requested, the address of an active client is given away; with none
requested, `NULL` is read although a lease has expired. -/
theorem active_binding_handed_out :
    newDynamicBinding [printerBinding, leasedBinding .associated] fullPool 0xC0A8011E#32 (discover macB).turn.ident 0
        true = some (⟨[printerBinding, leasedBinding .associated], some 1⟩, fullPool) ∧
      ¬ HandsOutIdle [printerBinding, leasedBinding .associated] fullPool 0xC0A8011E#32 (discover macB).turn.ident 0
        true ∧
      newDynamicBinding [leasedBinding .expired] fullPool 0#32 (discover macB).turn.ident 0 true = none ∧
      ¬ HandsOutIdle [leasedBinding .expired] fullPool 0#32 (discover macB).turn.ident 0 true := by
  have active : newDynamicBinding [printerBinding, leasedBinding .associated] fullPool 0xC0A8011E#32
      (discover macB).turn.ident 0 true =
        some (⟨[printerBinding, leasedBinding .associated], some 1⟩, fullPool) := rfl
  refine ⟨active, fun safe => ?_, rfl, fun safe => ?_⟩
  · rcases safe.idle _ _ active rfl with ⟨first, -⟩ | ⟨-, reusable⟩
    · cases first
    · cases reusable
  · obtain ⟨r, returned, -⟩ := safe.recycled (Or.inl (by decide)) ⟨_, List.mem_cons_self, rfl⟩
    cases returned

end DhcpServer
