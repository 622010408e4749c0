import DhcpServer.DynamicBinding
import DhcpServer.SweepFilter

/-!
# Static reservations

`add_binding` makes a static binding `PENDING` like any other, `update_bindings_statuses` ages it like any
other, and then `cleanup_expired_bindings` removes it. A reservation lasts until an update more than an hour
after it and the next cleanup.
-/

namespace DhcpServer
set_option autoImplicit false
open Lib

/-- The calls that add bindings and sweep them. -/
inductive ListCall where
  | addBinding (address : BitVec 32) (cident : ClientIdent) (isStatic : Assignment) (now : Int) (callocOk : Bool)
  | updateBindingsStatuses (now : Int)
  | cleanupExpiredBindings

def ListCall.run (list : BindingList) : ListCall → BindingList
  | .addBinding address cident isStatic now callocOk =>
    (DhcpServer.addBinding list address cident isStatic now callocOk).bindings
  | .updateBindingsStatuses now => DhcpServer.updateBindingsStatuses now list
  | .cleanupExpiredBindings => DhcpServer.cleanupExpiredBindings list

/-- The list the calls build from the empty one, the newest call first. -/
def built (calls : List ListCall) : BindingList := calls.foldr (fun call list => call.run list) []

/-- The address and the client of a static binding that was added. -/
def ListCall.reserves : ListCall → Option (BitVec 32 × ClientIdent)
  | .addBinding address cident isStatic _ callocOk =>
    if isStatic = .static ∧ callocOk = true then some (address, cident) else none
  | .updateBindingsStatuses _ => none
  | .cleanupExpiredBindings => none

def isReservation (b : IpBinding) : Bool := b.isStatic == .static

/-- The addresses and clients of the static bindings in a list. -/
def reservedIn (list : BindingList) : List (BitVec 32 × ClientIdent) :=
  (list.filter isReservation).map fun b => (b.address, b.cident)

/-- Every binding that was added as static is still in the list, with its address and client. -/
def ReservationsKept (calls : List ListCall) : Prop := reservedIn (built calls) = calls.filterMap ListCall.reserves

/-- An update more than an hour after a static binding was added. -/
def UpdatedLate (calls : List ListCall) : Prop := ∃ address cident s t, t - s > 3600 ∧
  [.updateBindingsStatuses t, .addBinding address cident .static s true].Sublist calls

/-- And a cleanup after that. -/
def SweptLate (calls : List ListCall) : Prop := ∃ address cident s t, t - s > 3600 ∧
  [.cleanupExpiredBindings, .updateBindingsStatuses t, .addBinding address cident .static s true].Sublist calls

section Age
variable {now : Int} {b : IpBinding}

theorem age_frame : (b.age now).address = b.address ∧ (b.age now).cident = b.cident ∧
    (b.age now).bindingTime = b.bindingTime ∧ (b.age now).isStatic = b.isStatic := by
  unfold IpBinding.age
  split <;> exact ⟨rfl, rfl, rfl, rfl⟩

theorem age_expired (expired : b.status = .expired) : b.age now = b := by
  rw [IpBinding.age, if_neg]
  rw [expired]
  rintro ⟨⟨⟩, -⟩

theorem isReservation_age : isReservation (b.age now) = isReservation b := by
  rw [isReservation, age_frame.2.2.2]
  rfl

end Age

section Lists
variable {list : BindingList} {now : Int}

/-- An update keeps the reservations. -/
theorem reservedIn_update : reservedIn (updateBindingsStatuses now list) = reservedIn list := by
  have same : isReservation ∘ IpBinding.age now = isReservation := funext fun _ => isReservation_age
  rw [updateBindingsStatuses_eq_map, reservedIn, List.filter_map, same, List.map_map, reservedIn]
  refine List.map_congr_left fun b _ => ?_
  obtain ⟨address, cident, -, -⟩ := @age_frame now b
  rw [Function.comp_apply, address, cident]

theorem cleanupExpiredBindings_eq_filter :
    cleanupExpiredBindings list = list.filter fun b => b.status != .expired := by
  rw [cleanupExpiredBindings_eq_filterMap, ← List.filterMap_eq_filter]
  refine List.filterMap_congr fun b _ => ?_
  unfold IpBinding.cleanup Option.guard
  by_cases expired : b.status = .expired <;> simp [expired]

theorem reservations_cleanup_sublist :
    ((cleanupExpiredBindings list).filter isReservation).Sublist (list.filter isReservation) := by
  rw [cleanupExpiredBindings_eq_filter]
  exact List.filter_sublist.filter _

/-- A cleanup keeps the reservations when none is expired. -/
theorem reservedIn_cleanup_iff : reservedIn (cleanupExpiredBindings list) = reservedIn list ↔
    ∀ b ∈ list, isReservation b = true → b.status ≠ .expired := by
  constructor
  · intro same b member reservation expired
    have length := congrArg List.length same
    rw [reservedIn, reservedIn, List.length_map, List.length_map] at length
    have inList : b ∈ list.filter isReservation := List.mem_filter.mpr ⟨member, reservation⟩
    rw [← reservations_cleanup_sublist.eq_of_length length, cleanupExpiredBindings_eq_filter] at inList
    have current := (List.mem_filter.mp (List.mem_filter.mp inList).1).2
    exact bne_iff_ne.mp current expired
  · intro current
    rw [reservedIn, reservedIn, cleanupExpiredBindings_eq_filter, List.filter_filter]
    congr 1
    refine List.filter_congr fun b member => ?_
    cases reservation : isReservation b with
    | false => rfl
    | true => rw [bne_iff_ne.mpr (current b member reservation), Bool.and_self]

end Lists

/-! ## Histories -/

section Calls
variable {calls : List ListCall} {call : ListCall} {b : IpBinding} {address : BitVec 32} {cident : ClientIdent}
  {isStatic : Assignment} {now : Int} {callocOk : Bool}

theorem built_cons : built (call :: calls) = call.run (built calls) := rfl

/-- What `add_binding` adds to the reservations is what it puts into the list. -/
theorem reservedIn_add : reservedIn (built (.addBinding address cident isStatic now callocOk :: calls)) =
    ((ListCall.addBinding address cident isStatic now callocOk).reserves).toList ++ reservedIn (built calls) := by
  rw [built_cons]
  cases callocOk with
  | false =>
    have none : (ListCall.addBinding address cident isStatic now false).reserves = none := if_neg (by simp)
    rw [none]
    rfl
  | true => cases isStatic <;> rfl

/-- No call brings a reservation back. -/
theorem reservedIn_sublist (calls : List ListCall) :
    (reservedIn (built calls)).Sublist (calls.filterMap ListCall.reserves) := by
  induction calls with
  | nil => exact List.Sublist.refl _
  | cons call calls ih =>
    cases call with
    | addBinding address cident isStatic now callocOk =>
      rw [reservedIn_add, List.filterMap_cons]
      cases (ListCall.addBinding address cident isStatic now callocOk).reserves with
      | none => exact ih
      | some key => exact ih.cons_cons key
    | updateBindingsStatuses now =>
      rw [built_cons, ListCall.run, reservedIn_update]
      exact ih
    | cleanupExpiredBindings => exact (reservations_cleanup_sublist.map _).trans ih

/-- **A call keeps the reservations** unless it is a cleanup with an expired one in the list. -/
theorem reservationsKept_cons : ReservationsKept (call :: calls) ↔ ReservationsKept calls ∧
    (call = .cleanupExpiredBindings → ∀ b ∈ built calls, isReservation b = true → b.status ≠ .expired) := by
  unfold ReservationsKept
  cases call with
  | addBinding address cident isStatic now callocOk =>
    rw [reservedIn_add, List.filterMap_cons, and_iff_left nofun]
    cases (ListCall.addBinding address cident isStatic now callocOk).reserves with
    | none => exact Iff.rfl
    | some key => exact List.cons_inj_right key
  | updateBindingsStatuses now =>
    rw [built_cons, ListCall.run, reservedIn_update, and_iff_left nofun]
    exact Iff.rfl
  | cleanupExpiredBindings =>
    have made : (ListCall.cleanupExpiredBindings :: calls).filterMap ListCall.reserves =
        calls.filterMap ListCall.reserves := rfl
    rw [built_cons, ListCall.run, made, forall_prop_of_true rfl, ← reservedIn_cleanup_iff]
    constructor
    · intro kept
      have fewer : (reservedIn (cleanupExpiredBindings (built calls))).Sublist (reservedIn (built calls)) :=
        reservations_cleanup_sublist.map _
      have all := (reservedIn_sublist calls).antisymm (kept ▸ fewer)
      exact ⟨all, kept.trans all.symm⟩
    · rintro ⟨kept, same⟩
      exact same.trans kept

/-! ### Expired reservations -/

theorem UpdatedLate.cons (late : UpdatedLate calls) (call : ListCall) : UpdatedLate (call :: calls) := by
  obtain ⟨address, cident, s, t, past, order⟩ := late
  exact ⟨address, cident, s, t, past, order.cons call⟩

/-- Where a static binding comes from, and what has become of it. -/
structure Dated (calls : List ListCall) (b : IpBinding) : Prop where
  added : .addBinding b.address b.cident .static b.bindingTime true ∈ calls
  aged : b.status = .pending ∨ b.status = .expired ∧ UpdatedLate calls

theorem Dated.cons (dated : Dated calls b) (call : ListCall) : Dated (call :: calls) b where
  added := List.mem_cons_of_mem call dated.added
  aged := dated.aged.imp_right fun expired => ⟨expired.1, expired.2.cons call⟩

theorem Dated.age (dated : Dated calls b) (now : Int) : Dated (.updateBindingsStatuses now :: calls) (b.age now) := by
  unfold IpBinding.age
  split
  · rename_i aged
    refine ⟨List.mem_cons_of_mem _ dated.added, Or.inr ⟨rfl, ?_⟩⟩
    exact ⟨b.address, b.cident, b.bindingTime, now, aged.2, (List.singleton_sublist.mpr dated.added).cons_cons _⟩
  · exact dated.cons _

/-- **Every static binding in the list** was added, and is expired only after a late update. -/
theorem dated_of_built : ∀ b ∈ built calls, isReservation b = true → Dated calls b := by
  induction calls with
  | nil => exact nofun
  | cons call calls ih =>
    intro b member static
    rw [built_cons] at member
    cases call with
    | addBinding address cident isStatic now callocOk =>
      cases callocOk with
      | false => exact (ih b member static).cons _
      | true =>
        rcases List.mem_cons.mp member with rfl | member
        · obtain rfl : isStatic = .static := eq_of_beq static
          exact ⟨List.mem_cons_self, Or.inl rfl⟩
        · exact (ih b member static).cons _
    | updateBindingsStatuses now =>
      rw [ListCall.run, updateBindingsStatuses_eq_map] at member
      obtain ⟨c, earlier, rfl⟩ := List.mem_map.mp member
      rw [isReservation_age] at static
      exact (ih c earlier static).age now
    | cleanupExpiredBindings =>
      rw [ListCall.run, cleanupExpiredBindings_eq_filter] at member
      exact (ih b (List.mem_filter.mp member).1 static).cons _

/-- A static binding stays in the list, as it is or expired. -/
theorem reservation_stays (kept : ReservationsKept (call :: calls)) (member : b ∈ built calls)
    (static : isReservation b = true) :
    ∃ c ∈ built (call :: calls), isReservation c = true ∧ (c = b ∨ c.status = .expired) := by
  rw [built_cons]
  cases call with
  | addBinding _ _ _ _ callocOk =>
    cases callocOk with
    | false => exact ⟨b, member, static, Or.inl rfl⟩
    | true => exact ⟨b, List.mem_cons_of_mem _ member, static, Or.inl rfl⟩
  | updateBindingsStatuses now =>
    rw [ListCall.run, updateBindingsStatuses_eq_map]
    refine ⟨b.age now, List.mem_map_of_mem member, isReservation_age.trans static, ?_⟩
    unfold IpBinding.age
    split
    · exact Or.inr rfl
    · exact Or.inl rfl
  | cleanupExpiredBindings =>
    have stays := (reservationsKept_cons.mp kept).2 rfl b member static
    rw [ListCall.run, cleanupExpiredBindings_eq_filter]
    exact ⟨b, List.mem_filter.mpr ⟨member, bne_iff_ne.mpr stays⟩, static, Or.inl rfl⟩

/-- A reservation that was made at `s` is in the list, as long as all are. -/
theorem standing_of_added (kept : ReservationsKept calls) {s : Int}
    (added : .addBinding address cident .static s true ∈ calls) : ∃ b ∈ built calls, isReservation b = true ∧
      (b.status = .expired ∨ b.status = .pending ∧ b.bindingTime = s) := by
  induction calls with
  | nil => cases added
  | cons call calls ih =>
    rcases List.mem_cons.mp added with rfl | before
    · exact ⟨_, List.mem_cons_self, rfl, Or.inr ⟨rfl, rfl⟩⟩
    · obtain ⟨b, member, static, status⟩ := ih (reservationsKept_cons.mp kept).1 before
      obtain ⟨c, stays, static', rfl | expired⟩ := reservation_stays kept member static
      · exact ⟨c, stays, static', status⟩
      · exact ⟨c, stays, static', Or.inl expired⟩

/-- After a late update one of them is expired. -/
theorem expired_of_updatedLate (kept : ReservationsKept calls) (late : UpdatedLate calls) :
    ∃ b ∈ built calls, isReservation b = true ∧ b.status = .expired := by
  induction calls with
  | nil =>
    obtain ⟨_, _, _, _, -, order⟩ := late
    cases order
  | cons call calls ih =>
    have earlier := (reservationsKept_cons.mp kept).1
    obtain ⟨address, cident, s, t, past, order⟩ := late
    rcases List.sublist_cons_iff.mp order with before | ⟨rest, same, after⟩
    · obtain ⟨b, member, static, expired⟩ := ih earlier ⟨address, cident, s, t, past, before⟩
      obtain ⟨c, stays, static', rfl | expired'⟩ := reservation_stays kept member static
      · exact ⟨c, stays, static', expired⟩
      · exact ⟨c, stays, static', expired'⟩
    · obtain ⟨rfl, rfl⟩ := List.cons.inj same
      obtain ⟨b, member, static, status⟩ := standing_of_added earlier (List.singleton_sublist.mp after)
      rw [built_cons, ListCall.run, updateBindingsStatuses_eq_map]
      refine ⟨b.age t, List.mem_map_of_mem member, isReservation_age.trans static, ?_⟩
      rcases status with expired | ⟨pending, rfl⟩
      · rw [age_expired expired]
        exact expired
      · rw [IpBinding.age, if_pos ⟨pending, past⟩]

theorem sweptLate_cons : SweptLate (call :: calls) ↔
    SweptLate calls ∨ call = .cleanupExpiredBindings ∧ UpdatedLate calls := by
  constructor
  · rintro ⟨address, cident, s, t, past, order⟩
    rcases List.sublist_cons_iff.mp order with before | ⟨rest, same, after⟩
    · exact Or.inl ⟨address, cident, s, t, past, before⟩
    · obtain ⟨rfl, rfl⟩ := List.cons.inj same
      exact Or.inr ⟨rfl, address, cident, s, t, past, after⟩
  · rintro (⟨address, cident, s, t, past, order⟩ | ⟨rfl, address, cident, s, t, past, order⟩)
    · exact ⟨address, cident, s, t, past, order.cons call⟩
    · exact ⟨address, cident, s, t, past, order.cons_cons _⟩

end Calls

/-- **When static reservations survive**: in every sequence of calls without a cleanup behind an update more
than an hour after a static binding was added. -/
theorem reservations_kept_iff (calls : List ListCall) : ReservationsKept calls ↔ ¬ SweptLate calls := by
  induction calls with
  | nil =>
    refine iff_of_true rfl ?_
    rintro ⟨_, _, _, _, -, order⟩
    cases order
  | cons call calls ih =>
    rw [reservationsKept_cons, sweptLate_cons, not_or, not_and, ← ih]
    refine and_congr_right fun kept => forall_congr' fun _ => ?_
    constructor
    · intro current late
      obtain ⟨b, member, static, expired⟩ := expired_of_updatedLate kept late
      exact current b member static expired
    · intro early b member static expired
      rcases (dated_of_built b member static).aged with pending | ⟨-, late⟩
      · rw [pending] at expired
        cases expired
      · exact early late

/-- A reservation for a printer, and a sweep 3601 seconds later. -/
theorem reservation_swept :
    built [.cleanupExpiredBindings, .updateBindingsStatuses 3601,
      .addBinding 0xC0A8011E#32 (discover macB).turn.ident .static 0 true] = [] ∧
    ¬ ReservationsKept [.cleanupExpiredBindings, .updateBindingsStatuses 3601,
      .addBinding 0xC0A8011E#32 (discover macB).turn.ident .static 0 true] := by
  have empty : built [.cleanupExpiredBindings, .updateBindingsStatuses 3601,
      .addBinding 0xC0A8011E#32 (discover macB).turn.ident .static 0 true] = [] := rfl
  refine ⟨empty, fun kept => ?_⟩
  rw [ReservationsKept, empty] at kept
  cases kept

end DhcpServer
