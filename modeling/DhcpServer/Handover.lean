import DhcpServer.Recycling

/-!
# Whose binding is handed out

`new_dynamic_binding` returns a recycled binding as it is, so with the identifier of the client that had it
before. Only a new binding has the identifier of the caller.
-/

namespace DhcpServer
set_option autoImplicit false
open Lib

/-- Some look-up for another client finds a binding with the address. -/
def FoundUnderOther (list : BindingList) (cident : ClientIdent) (address : BitVec 32) : Prop :=
  ∃ other, other ≠ cident ∧ ∃ isStatic status binding,
    searchBinding list other isStatic status = some binding ∧ (list.get binding).address = address

/-- The binding is in the list and has the identifier, a look-up for the client with its status finds one of the
client's, and no look-up for another client finds its address. -/
structure ClientsOwn (list : BindingList) (cident : ClientIdent) (binding : Fin list.length) : Prop where
  member : list.get binding ∈ list
  named : (list.get binding).cident = cident
  found : ∃ b, searchBinding list cident .staticOrDynamic (list.get binding).status = some b ∧
    (list.get b).cident = cident
  alone : ¬ FoundUnderOther list cident (list.get binding).address

section Call
variable (list : BindingList) (indexes : IpPoolInd) (address : BitVec 32) (cident : ClientIdent) (now : Int)
  (callocOk : Bool)

/-- A binding that is returned is the client's. -/
def HandsOutOwn : Prop :=
  ∀ r b, newDynamicBinding list indexes address cident now callocOk = some r → r.1.binding = some b →
    ClientsOwn r.1.bindings cident b

/-- The binding each way out returns is the client's before the call. -/
structure OwnBefore : Prop where
  /-- The one that holds the requested address, when it can be reused. -/
  requested : ∀ b ∈ holderOf list address, b.reusable = true →
    b.cident = cident ∧ ¬ FoundUnderOther list cident b.address
  /-- A new one has the identifier. Its address is the next one of the pool. -/
  fresh : (∀ b ∈ holderOf list address, b.reusable = false) → ¬ indexes.Exhausted → callocOk = true →
    ¬ FoundUnderOther list cident indexes.ipCurrent
  /-- The first dynamic one, when no address is left and the holder's status lets it through. -/
  recycled : (∀ b ∈ holderOf list address, b.reusable = false) → indexes.Exhausted →
    (∃ b ∈ holderOf list address, b.status.ended = true) →
      ∀ c ∈ firstDynamic list, c.cident = cident ∧ ¬ FoundUnderOther list cident c.address

end Call

section Found
variable {list : BindingList} {cident : ClientIdent} {address : BitVec 32}

/-- A binding is found by its own identifier and status. -/
theorem found_of_named {binding : Fin list.length} (named : (list.get binding).cident = cident) :
    ∃ b, searchBinding list cident .staticOrDynamic (list.get binding).status = some b ∧
      (list.get b).cident = cident := by
  cases search : searchBinding list cident .staticOrDynamic (list.get binding).status with
  | none =>
    have missed := findFin_none.mp search _ (List.get_mem list binding)
    rw [IpBinding.matches, named, beq_self_eq_true, beq_self_eq_true, beq_self_eq_true, Bool.or_true,
      Bool.or_true] at missed
    cases missed
  | some b =>
    obtain ⟨-, -, -, -, passes, -⟩ := findFin_split search
    simp only [IpBinding.matches, Bool.and_eq_true, beq_iff_eq] at passes
    exact ⟨b, rfl, passes.1.2⟩

theorem clientsOwn_iff {binding : Fin list.length} : ClientsOwn list cident binding ↔
    (list.get binding).cident = cident ∧ ¬ FoundUnderOther list cident (list.get binding).address := by
  constructor
  · exact fun own => ⟨own.named, own.alone⟩
  · rintro ⟨named, alone⟩
    exact ⟨List.get_mem list binding, named, found_of_named named, alone⟩

/-- What other clients find does not change with a binding of the client in front. -/
theorem foundUnderOther_cons {b : IpBinding} (named : b.cident = cident) :
    FoundUnderOther (b :: list) cident address ↔ FoundUnderOther list cident address := by
  refine exists_congr fun other => and_congr_right fun differs => exists_congr fun isStatic => ?_
  refine exists_congr fun status => ?_
  have passed : b.matches other isStatic status = false := by
    rw [IpBinding.matches, named, beq_eq_false_iff_ne.mpr differs.symm, Bool.and_false, Bool.false_and]
  have later : searchBinding (b :: list) other isStatic status =
      (searchBinding list other isStatic status).map Fin.succ := by
    rw [searchBinding, List.findFinIdx?_cons, if_neg (by rw [passed]; exact Bool.false_ne_true)]
    rfl
  rw [later]
  constructor
  · rintro ⟨binding, search, holds⟩
    obtain ⟨i, found, rfl⟩ := Option.map_eq_some_iff.mp search
    exact ⟨i, found, holds⟩
  · rintro ⟨i, search, holds⟩
    exact ⟨i.succ, Option.map_eq_some_iff.mpr ⟨i, search, rfl⟩, holds⟩

end Found

section Cases
variable {list : BindingList} {indexes : IpPoolInd} {address : BitVec 32} {cident : ClientIdent} {now : Int}
  {callocOk : Bool}

/-- With the result known it is about the binding returned, if any. -/
theorem handsOutOwn_of_call {r : Pointed × IpPoolInd}
    (call : newDynamicBinding list indexes address cident now callocOk = some r) :
    HandsOutOwn list indexes address cident now callocOk ↔
      ∀ b, r.1.binding = some b → ClientsOwn r.1.bindings cident b := by
  constructor
  · exact fun own b => own r b call
  · intro own r' b returned binding
    obtain rfl := Option.some.inj (call.symm.trans returned)
    exact own b binding

/-- The paths exclude each other. -/
theorem ownBefore_requested {b : IpBinding} (holds : holderOf list address = some b) (reusable : b.reusable = true) :
    OwnBefore list indexes address cident callocOk ↔ b.cident = cident ∧ ¬ FoundUnderOther list cident b.address := by
  have idle : ¬ ∀ c ∈ holderOf list address, c.reusable = false := fun busy =>
    absurd (reusable.symm.trans (busy b holds)) Bool.noConfusion
  constructor
  · exact fun before => before.requested b holds reusable
  · intro own
    refine ⟨fun c holds' _ => ?_, fun busy => (idle busy).elim, fun busy => (idle busy).elim⟩
    obtain rfl := Option.some.inj (holds.symm.trans holds')
    exact own

theorem ownBefore_fresh (busy : ∀ b ∈ holderOf list address, b.reusable = false) (room : ¬ indexes.Exhausted) :
    OwnBefore list indexes address cident callocOk ↔
      (callocOk = true → ¬ FoundUnderOther list cident indexes.ipCurrent) := by
  constructor
  · exact fun before => before.fresh busy room
  · intro alone
    refine ⟨fun b holds reusable => ?_, fun _ _ => alone, fun _ exhausted => (room exhausted).elim⟩
    exact absurd (reusable.symm.trans (busy b holds)) Bool.noConfusion

theorem ownBefore_recycled (busy : ∀ b ∈ holderOf list address, b.reusable = false) (exhausted : indexes.Exhausted) :
    OwnBefore list indexes address cident callocOk ↔ ((∃ b ∈ holderOf list address, b.status.ended = true) →
      ∀ c ∈ firstDynamic list, c.cident = cident ∧ ¬ FoundUnderOther list cident c.address) := by
  constructor
  · exact fun before => before.recycled busy exhausted
  · intro own
    refine ⟨fun b holds reusable => ?_, fun _ room => (room exhausted).elim, fun _ _ => own⟩
    exact absurd (reusable.symm.trans (busy b holds)) Bool.noConfusion

end Cases

/-- **When a binding that is handed out is the client's**: when the one returned was before, by the path taken. -/
theorem hands_out_own_iff (list : BindingList) (indexes : IpPoolInd) (address : BitVec 32) (cident : ClientIdent)
    (now : Int) (callocOk : Bool) :
    HandsOutOwn list indexes address cident now callocOk ↔ OwnBefore list indexes address cident callocOk := by
  rcases @reusable_or_busy list address with ⟨i, found, reusable⟩ | busy
  · rw [handsOutOwn_of_call (newDynamicBinding_holder found reusable),
      ownBefore_requested (holderOf_eq found) reusable, ← clientsOwn_iff]
    simp only [Option.some.injEq, forall_eq']
  by_cases exhausted : indexes.Exhausted
  · rw [ownBefore_recycled busy exhausted]
    rcases @anyDynamic_cases list address with ⟨b, c, i, holds, ended, first, rfl, last⟩ | ⟨nothing, why⟩
    · have call : newDynamicBinding list indexes address cident now callocOk =
          some (⟨list, some i⟩, (takeFreeAddress indexes).2) := by
        rw [newDynamicBinding_exhausted busy exhausted, last]
        rfl
      rw [handsOutOwn_of_call call, first, imp_iff_right ⟨b, holds, ended⟩]
      simp only [Option.mem_def, Option.some.injEq, forall_eq', ← clientsOwn_iff]
    · refine iff_of_true (fun r i returned binding => ?_) fun ⟨b, holds, ended⟩ c first => ?_
      · rw [newDynamicBinding_exhausted busy exhausted] at returned
        obtain ⟨_, last, rfl⟩ := Option.map_eq_some_iff.mp returned
        exact (nothing i (last.trans (congrArg some binding))).elim
      · rcases why with none | stops
        · exact absurd (first.symm.trans none) nofun
        · exact absurd (ended.symm.trans (stops b holds)) Bool.noConfusion
  · rw [handsOutOwn_of_call (newDynamicBinding_room busy exhausted), ownBefore_fresh busy exhausted]
    cases callocOk with
    | false => exact iff_of_true nofun nofun
    | true =>
      rw [imp_iff_right rfl, ← foundUnderOther_cons (b := ⟨indexes.ipCurrent, cident, now, 0, .pending, .dynamic⟩) rfl]
      constructor
      · exact fun own => (own ⟨0, Nat.zero_lt_succ _⟩ rfl).alone
      · rintro alone _ ⟨⟩
        exact clientsOwn_iff.mpr ⟨rfl, alone⟩

/-- A client is handed the expired lease of another one, under whose identifier it stays. -/
theorem others_binding_handed_out :
    newDynamicBinding [leasedBinding .expired] lanPool 0xC0A80110#32 (discover macB).turn.ident 0 true =
        some (⟨[leasedBinding .expired], some 0⟩, lanPool) ∧
      (leasedBinding .expired).cident = (discover macA).turn.ident ∧
      searchBinding [leasedBinding .expired] (discover macB).turn.ident .staticOrDynamic .expired = none ∧
      ¬ HandsOutOwn [leasedBinding .expired] lanPool 0xC0A80110#32 (discover macB).turn.ident 0 true := by
  have call : newDynamicBinding [leasedBinding .expired] lanPool 0xC0A80110#32 (discover macB).turn.ident 0 true =
      some (⟨[leasedBinding .expired], some 0⟩, lanPool) := rfl
  have missed : searchBinding [leasedBinding .expired] (discover macB).turn.ident .staticOrDynamic .expired = none := by
    decide
  refine ⟨call, rfl, missed, fun own => ?_⟩
  obtain ⟨b, search, -⟩ := (own _ _ call rfl).found
  exact absurd (missed.symm.trans search) nofun

end DhcpServer
