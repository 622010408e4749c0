import DhcpServer.Cursor

/-!
# The bindings as a record of the run

Addresses are offered once only, so the history says what the list holds: the binding of each
OFFER whose address was not declined since, released if its address was.
-/

namespace DhcpServer
set_option autoImplicit false
open Lib

/-- The OFFERs of a history, newest first. -/
def offersMade (h : History) : List (Turn × BitVec 32) :=
  h.filterMap fun e => match e.2 with
    | .offered ip _ _ => some (e.1, ip)
    | _ => none

/-- The binding of an OFFER at the end of the history. -/
def offeredBinding (config : DhcpConfig) (h : History) (offer : Turn × BitVec 32) : IpBinding :=
  if releases offer.2 h then (newBinding offer.1 config offer.2).release else newBinding offer.1 config offer.2

/-- The bindings a history leaves. -/
def recorded (config : DhcpConfig) (h : History) : BindingList :=
  ((offersMade h).filter fun offer => !declines offer.2 h).map (offeredBinding config h)

section Record
variable {pool : IpPoolInd} {config : DhcpConfig} {h : History} {s t : Server} {turn : Turn} {action : Action}

@[simp] theorem offeredBinding_address (offer : Turn × BitVec 32) :
    (offeredBinding config h offer).address = offer.2 := by
  unfold offeredBinding
  split <;> rfl

theorem mem_offersMade {offer : Turn × BitVec 32} :
    offer ∈ offersMade h ↔ ∃ reply sent, (offer.1, .offered offer.2 reply sent) ∈ h := by
  simp only [offersMade, List.mem_filterMap]
  constructor
  · rintro ⟨⟨turn, action⟩, entry, carried⟩
    cases action with
    | offered ip reply sent =>
      cases carried
      exact ⟨reply, sent, entry⟩
    | _ => cases carried
  · rintro ⟨reply, sent, entry⟩
    exact ⟨_, entry, rfl⟩

theorem mem_recorded {b : IpBinding} : b ∈ recorded config h ↔
    ∃ turn ip reply sent, (turn, .offered ip reply sent) ∈ h ∧ declines ip h = false ∧
      b = offeredBinding config h (turn, ip) := by
  simp only [recorded, List.mem_map, List.mem_filter, mem_offersMade, Bool.not_eq_true']
  constructor
  · rintro ⟨⟨turn, ip⟩, ⟨⟨reply, sent, entry⟩, kept⟩, rfl⟩
    exact ⟨turn, ip, reply, sent, entry, kept, rfl⟩
  · rintro ⟨turn, ip, reply, sent, entry, kept, rfl⟩
    exact ⟨(turn, ip), ⟨⟨reply, sent, entry⟩, kept⟩, rfl⟩

/-! ## One more turn -/

/-- An OFFER of an address that was never given up adds its binding. -/
theorem recorded_offered {ip : BitVec 32} {reply : Reply} {sent : Bool} (kept : declines ip h = false)
    (held : releases ip h = false) :
    recorded config ((turn, .offered ip reply sent) :: h) = newBinding turn config ip :: recorded config h := by
  have here : offeredBinding config h (turn, ip) = newBinding turn config ip := by simp [offeredBinding, held]
  rw [← here]
  exact congrArg (List.map (offeredBinding config h)) (List.filter_cons_of_pos (congrArg not kept))

/-- A decline takes out the bindings of its address. -/
theorem recorded_declined {ip : BitVec 32} : recorded config ((turn, .declined ip) :: h) =
    (recorded config h).filter (fun b => b.address != ip) := by
  have test : ∀ offer : Turn × BitVec 32, (!declines offer.2 ((turn, .declined ip) :: h)) =
      (offer.2 != ip && !declines offer.2 h) := by
    intro offer
    rw [declines, List.any_cons, Bool.not_or, bne, BEq.comm]
    rfl
  rw [recorded, recorded, List.filter_map, List.filter_filter]
  simp only [test, Function.comp_def, offeredBinding_address]
  rfl

/-- A release marks the bindings of its address. -/
theorem recorded_released {ip : BitVec 32} : recorded config ((turn, .released ip) :: h) =
    (recorded config h).map (fun b => if b.address == ip then b.release else b) := by
  have marked : ∀ offer : Turn × BitVec 32, offeredBinding config ((turn, .released ip) :: h) offer =
      if (offeredBinding config h offer).address == ip then (offeredBinding config h offer).release
      else offeredBinding config h offer := by
    intro offer
    have test : releases offer.2 ((turn, .released ip) :: h) = (offer.2 == ip || releases offer.2 h) := by
      rw [releases, List.any_cons, BEq.comm]
      rfl
    rw [offeredBinding_address, offeredBinding, offeredBinding, test]
    by_cases same : offer.2 = ip
    · subst same
      cases releases offer.2 h <;> simp [IpBinding.release]
    · simp [same]
  rw [recorded, recorded, List.map_map]
  exact List.map_congr_left fun offer _ => marked offer

/-! ## Along a run -/

/-- The list is the record of the history, at the lease time the server started with. -/
structure Recorded (config : DhcpConfig) (h : History) (s : Server) : Prop where
  bindings : s.bindings = recorded config h
  maxLeaseTime : s.config.maxLeaseTime = config.maxLeaseTime

/-- Only the lease time of the configuration goes into a binding. -/
theorem newBinding_congr {config' : DhcpConfig} (same : config'.maxLeaseTime = config.maxLeaseTime)
    (ip : BitVec 32) : newBinding turn config' ip = newBinding turn config ip := by
  rw [newBinding, newBinding, same]

theorem Recorded.served (alloc : Allocated pool s) (inv : Recorded config h s)
    (kept : ∀ a, s.pool.ipCurrent < a → declines a h = false ∧ releases a h = false)
    (served : Served s turn t action) : Recorded config ((turn, action) :: h) t := by
  have distinct := alloc.distinct
  have bindings := inv.bindings
  cases served with
  | missed => exact ⟨bindings, inv.maxLeaseTime⟩
  | outOfMemory => exact ⟨bindings, inv.maxLeaseTime⟩
  | offered _ room offer nonzero =>
    obtain ⟨-, rfl, rfl⟩ := offer_eq_next alloc.bounds room offer nonzero
    obtain ⟨undeclined, unreleased⟩ := kept _ (ipCurrent_lt_nextAddress room)
    refine ⟨?_, inv.maxLeaseTime⟩
    rw [recorded_offered undeclined unreleased, ← bindings]
    exact congrArg (· :: s.bindings) (newBinding_congr inv.maxLeaseTime _)
  | acked => exact ⟨bindings, inv.maxLeaseTime⟩
  | declined _ search =>
    obtain ⟨front, back, split, -, -, removed, -⟩ := searchBinding_split search
    refine ⟨?_, inv.maxLeaseTime⟩
    rw [recorded_declined, ← bindings, removed]
    exact (filter_key_split split distinct).symm
  | released _ search =>
    obtain ⟨front, back, split, -, -, -, updated⟩ := searchBinding_split search
    refine ⟨?_, inv.maxLeaseTime⟩
    rw [recorded_released, ← bindings, updated]
    exact (map_key_split split distinct IpBinding.release).symm
  | _ => exact ⟨bindings, inv.maxLeaseTime⟩

/-- **The list is a function of the history.** -/
theorem Recorded.of_run (run : Run serve (Server.fresh pool config) h s) : Recorded config h s := by
  induction run with
  | start => exact ⟨rfl, rfl⟩
  | snoc before stepped ih =>
    apply ih.served (Allocated.of_run before) ?_ (served_of_serve stepped)
    intro a past
    constructor
    · rw [Bool.eq_false_iff, ne_eq, declines_iff]
      rintro ⟨turn, entry⟩
      exact absurd past (BitVec.not_lt.mpr (givenUp_le_cursor before entry rfl))
    · rw [Bool.eq_false_iff]
      intro check
      obtain ⟨turn, entry⟩ := released_of_releases check
      exact absurd past (BitVec.not_lt.mpr (givenUp_le_cursor before entry rfl))

end Record

end DhcpServer
