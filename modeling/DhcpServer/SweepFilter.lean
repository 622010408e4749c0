import DhcpServer.Lib.LinkedList
import DhcpServer.Sweep

/-!
# The sweep as a filter

`update_bindings_statuses` changes the bindings one by one and `cleanup_expired_bindings` unlinks some of
them while it goes along. On the linked bindings the two loops come to an end, and together they keep the
bindings that are neither expired nor pending for more than an hour, as they are.
-/

namespace DhcpServer
set_option autoImplicit false
open Lib

/-- The body of `update_bindings_statuses`. -/
def IpBinding.age (now : Int) (b : IpBinding) : IpBinding :=
  if b.status = .pending ∧ now - b.bindingTime > 3600 then { b with status := .expired } else b

/-- The body of `cleanup_expired_bindings`. -/
def IpBinding.cleanup (b : IpBinding) : Option IpBinding := if b.status = .expired then none else some b

/-- `update_bindings_statuses` on the linked bindings. -/
def updateBindingsLinks (now : Int) (fuel : Nat) (h : Links IpBinding) : Option (Links IpBinding) :=
  h.foreachSafe (Links.edit fun b => some (b.age now)) fuel h.first

/-- `cleanup_expired_bindings` on the linked bindings. -/
def cleanupExpiredLinks (fuel : Nat) (h : Links IpBinding) : Option (Links IpBinding) :=
  h.foreachSafe (Links.edit IpBinding.cleanup) fuel h.first

def sweepLinks (now : Int) (fuel : Nat) (h : Links IpBinding) : Option (Links IpBinding) :=
  (updateBindingsLinks now fuel h).bind (cleanupExpiredLinks fuel)

/-- A sweep leaves the binding. -/
def IpBinding.survives (now : Int) (b : IpBinding) : Bool :=
  b.status != .expired && !(b.status == .pending && decide (now - b.bindingTime > 3600))

/-- On linked bindings the sweep comes to an end, and what it leaves are nodes that were there, with the
bindings of `sweep`. -/
def SweepsLinks (now : Int) (list : BindingList) : Prop :=
  ∀ h xs fuel, Represents h xs → xs.map Prod.snd = list → list.length ≤ fuel →
    ∃ h' ys, sweepLinks now fuel h = some h' ∧ Represents h' ys ∧ ys.Sublist xs ∧ ys.map Prod.snd = sweep now list

section Filter
variable {now t₁ t₂ : Int} {list : BindingList} {b : IpBinding}

/-- The loop of `update_bindings_statuses` treats each binding alone. -/
theorem updateBindingsStatuses_eq_map : updateBindingsStatuses now list = list.map (IpBinding.age now) := by
  induction list with
  | nil => rfl
  | cons b rest ih =>
    rw [updateBindingsStatuses, ih]
    rfl

theorem cleanupExpiredBindings_eq_filterMap : cleanupExpiredBindings list = list.filterMap IpBinding.cleanup := by
  induction list with
  | nil => rfl
  | cons b rest ih =>
    rw [cleanupExpiredBindings, List.filterMap_cons, IpBinding.cleanup, ih]
    split <;> rfl

/-- A binding that is left was left alone. -/
theorem cleanup_age : (b.age now).cleanup = if b.survives now then some b else none := by
  unfold IpBinding.cleanup IpBinding.age IpBinding.survives
  by_cases aged : b.status = .pending ∧ now - b.bindingTime > 3600
  · simp [aged]
  · rw [if_neg aged]
    by_cases expired : b.status = .expired
    · simp [expired]
    · have settled : (b.status == .pending && decide (now - b.bindingTime > 3600)) = false := by simpa using aged
      simp [expired, settled]

/-- **A sweep is a filter.** -/
theorem sweep_eq_filter : sweep now list = list.filter (IpBinding.survives now) := by
  rw [sweep, cleanupExpiredBindings_eq_filterMap, updateBindingsStatuses_eq_map, List.filterMap_map,
    ← List.filterMap_eq_filter]
  congr 1
  funext b
  rw [Function.comp_apply, cleanup_age, Option.guard]

/-- What a later sweep leaves an earlier one leaves. -/
theorem survives_of_le (le : t₁ ≤ t₂) (survives : b.survives t₂ = true) : b.survives t₁ = true := by
  simp only [IpBinding.survives, Bool.and_eq_true, bne_iff_ne, Bool.not_eq_true', Bool.and_eq_false_iff,
    beq_eq_false_iff_ne, decide_eq_false_iff_not] at survives ⊢
  refine ⟨survives.1, survives.2.imp_right fun young => ?_⟩
  omega

theorem sweep_sweep (le : t₁ ≤ t₂) : sweep t₂ (sweep t₁ list) = sweep t₂ list := by
  rw [sweep_eq_filter, sweep_eq_filter, sweep_eq_filter, List.filter_filter]
  refine List.filter_congr fun b _ => ?_
  cases survives : b.survives t₂ with
  | false => rfl
  | true => rw [survives_of_le le survives, Bool.and_self]

/-- **The loops over the linked bindings** do what the sweep does to the list. -/
theorem sweepsLinks (now : Int) (list : BindingList) : SweepsLinks now list := by
  rintro h xs fuel represents rfl enough
  rw [List.length_map] at enough
  obtain ⟨h₁, updated, represents₁⟩ := represents.traverse enough fun b => some (b.age now)
  have enough₁ : (xs.filterMap (edited fun b => some (b.age now))).length ≤ fuel :=
    Nat.le_trans (List.length_filterMap_le _ _) enough
  obtain ⟨h₂, cleaned, represents₂⟩ := represents₁.traverse enough₁ IpBinding.cleanup
  have left : (xs.filterMap (edited fun b => some (b.age now))).filterMap (edited IpBinding.cleanup) =
      xs.filter fun x => x.2.survives now := by
    rw [List.filterMap_filterMap, ← List.filterMap_eq_filter]
    congr 1
    funext x
    have both : (edited (fun b => some (b.age now)) x).bind (edited IpBinding.cleanup) =
        ((x.2.age now).cleanup).map fun b => (x.1, b) := rfl
    rw [both, cleanup_age, Option.guard]
    split <;> rfl
  rw [left] at represents₂
  refine ⟨h₂, _, ?_, represents₂, List.filter_sublist, ?_⟩
  · rw [sweepLinks, updateBindingsLinks, updated, Option.bind_some, cleanupExpiredLinks, cleaned]
  · rw [sweep_eq_filter, List.filter_map]
    rfl

/-- **Sweeping is absorbing and order-preserving**: an earlier sweep makes no difference to a later one; what
is left is a part of the list in its order, as it was, without expired bindings; and so it is for the
linked bindings. -/
theorem sweep_absorbing (list : BindingList) (le : t₁ ≤ t₂) : sweep t₂ (sweep t₁ list) = sweep t₂ list ∧
    (sweep t₁ list).Sublist list ∧ (∀ b ∈ sweep t₁ list, b.status ≠ .expired) ∧ SweepsLinks t₁ list := by
  refine ⟨sweep_sweep le, ?_, fun b member => ?_, sweepsLinks t₁ list⟩
  · rw [sweep_eq_filter]
    exact List.filter_sublist
  · rw [sweep_eq_filter] at member
    have survives := (List.mem_filter.mp member).2
    exact bne_iff_ne.mp (Bool.and_eq_true_iff.mp survives).1

end Filter

/-- A binding that `add_binding` made at time 0. -/
def pendingBinding : IpBinding := ⟨0xC0A80110#32, (discover macA).turn.ident, 0, 0, .pending, .dynamic⟩

/-- One that it made later. -/
def laterBinding : IpBinding := { pendingBinding with address := 0xC0A80111#32, bindingTime := 3000 }

/-- A lease, the two, and an address given back. -/
def fourBindings : BindingList :=
  [{ pendingBinding with address := 0xC0A80113#32, status := .associated }, pendingBinding, laterBinding,
    { pendingBinding with address := 0xC0A80112#32, status := .released }]

/-- An hour later the first binding has expired, and the other one is left to age until the next sweep. -/
theorem sweep_absorbing_pending :
    (sweep 3601 fourBindings).map IpBinding.address = [0xC0A80113#32, 0xC0A80111#32, 0xC0A80112#32] ∧
    (sweep 7200 fourBindings).map IpBinding.address = [0xC0A80113#32, 0xC0A80112#32] ∧
    sweep 7200 (sweep 3601 fourBindings) = sweep 7200 fourBindings ∧ (sweep 3601 fourBindings).Sublist fourBindings ∧
    (∀ b ∈ sweep 3601 fourBindings, b.status ≠ .expired) ∧
    ∃ h xs h', Represents h xs ∧ xs.map Prod.snd = fourBindings ∧ sweepLinks 3601 4 h = some h' := by
  obtain ⟨again, part, unexpired, links⟩ := sweep_absorbing fourBindings (by decide : (3601 : Int) ≤ 7200)
  obtain ⟨h, xs, represents, values, -⟩ := exists_represents fourBindings
  obtain ⟨h', -, swept, -⟩ := links h xs 4 represents values (Nat.le_refl 4)
  exact ⟨by decide, by decide, again, part, unexpired, h, xs, h', represents, values, swept⟩

end DhcpServer
