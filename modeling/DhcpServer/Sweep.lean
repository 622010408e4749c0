import DhcpServer.Record

/-!
# The sweep (`update_bindings_statuses`, `cleanup_expired_bindings`)

The sweep ages `PENDING` bindings and unlinks `EXPIRED` ones. `send_DHCP_Offer` makes its
bindings `ASSOCIATED`, a release makes them `RELEASED`, and no lease time is ever compared with
the clock: the bindings of the handlers are not touched by a sweep.
-/

namespace DhcpServer
set_option autoImplicit false
open Lib

/-- `update_bindings_statuses` when the clock says `now`. -/
def updateBindingsStatuses (now : Int) : BindingList → BindingList
  | [] => []
  | b :: rest =>
    (if b.status = .pending ∧ now - b.bindingTime > 3600 then { b with status := .expired } else b) ::
      updateBindingsStatuses now rest

/-- `cleanup_expired_bindings`. The loop has saved the next binding when it unlinks one. -/
def cleanupExpiredBindings : BindingList → BindingList
  | [] => []
  | b :: rest => if b.status = .expired then cleanupExpiredBindings rest else b :: cleanupExpiredBindings rest

/-- One after the other. -/
def sweep (now : Int) (list : BindingList) : BindingList :=
  cleanupExpiredBindings (updateBindingsStatuses now list)

section Sweep
variable {now : Int} {list : BindingList}

theorem updateBindingsStatuses_of_not_pending (settled : ∀ b ∈ list, b.status ≠ .pending) :
    updateBindingsStatuses now list = list := by
  induction list with
  | nil => rfl
  | cons b rest ih =>
    obtain ⟨here, later⟩ := List.forall_mem_cons.mp settled
    rw [updateBindingsStatuses, if_neg fun aged => here aged.1, ih later]

theorem cleanupExpiredBindings_of_not_expired (current : ∀ b ∈ list, b.status ≠ .expired) :
    cleanupExpiredBindings list = list := by
  induction list with
  | nil => rfl
  | cons b rest ih =>
    obtain ⟨here, later⟩ := List.forall_mem_cons.mp current
    rw [cleanupExpiredBindings, if_neg here, ih later]

end Sweep

section Expiry
variable {pool : IpPoolInd} {config : DhcpConfig} {h : History} {s : Server}

/-- The bindings the handlers leave are `ASSOCIATED` or `RELEASED`, and dynamic. -/
theorem offeredBinding_status (offer : Turn × BitVec 32) :
    (offeredBinding config h offer).status ≠ .pending ∧ (offeredBinding config h offer).status ≠ .expired ∧
      (offeredBinding config h offer).isStatic = .dynamic := by
  unfold offeredBinding
  split
  · exact ⟨nofun, nofun, rfl⟩
  · exact ⟨nofun, nofun, rfl⟩

/-- **A sweep does nothing to a list the handlers made.** -/
theorem sweep_of_run (run : Run serve (Server.fresh pool config) h s) (now : Int) :
    sweep now s.bindings = s.bindings := by
  have each : ∀ b ∈ s.bindings, b.status ≠ .pending ∧ b.status ≠ .expired := by
    intro b member
    rw [(Recorded.of_run run).bindings, mem_recorded] at member
    obtain ⟨turn, ip, reply, sent, -, -, rfl⟩ := member
    obtain ⟨settled, current, -⟩ := @offeredBinding_status config h (turn, ip)
    exact ⟨settled, current⟩
  rw [sweep, updateBindingsStatuses_of_not_pending fun b member => (each b member).1]
  exact cleanupExpiredBindings_of_not_expired fun b member => (each b member).2

/-- A dynamic binding whose lease was over before `t`. -/
def IpBinding.leaseOver (t : Int) (b : IpBinding) : Prop := b.isStatic = .dynamic ∧ b.leaseTime < t

/-- Whether the OFFER of `ip` in `turn` runs at least until `t`: to the end of its lease time, or
not past 0 when it was released. -/
def offerCurrent (config : DhcpConfig) (h : History) (t : Int) (turn : Turn) (ip : BitVec 32) : Prop :=
  if releases ip h then t ≤ 0 else t ≤ turn.now + config.maxLeaseTime.toInt

theorem leaseOver_offeredBinding {t : Int} {turn : Turn} {ip : BitVec 32} :
    (offeredBinding config h (turn, ip)).leaseOver t ↔ ¬ offerCurrent config h t turn ip := by
  unfold IpBinding.leaseOver offerCurrent offeredBinding
  split
  · simp [IpBinding.release, newBinding]
  · simp [newBinding]

/-- **When a sweep at `t` leaves no lease that is over**: exactly when no OFFER of the run, but for
the declined ones, had run out before `t`. -/
theorem sweep_expires_iff (run : Run serve (Server.fresh pool config) h s) (t : Int) :
    (∀ b ∈ sweep t s.bindings, ¬ b.leaseOver t) ↔
      ∀ turn ip reply sent, (turn, .offered ip reply sent) ∈ h → declines ip h = false →
        offerCurrent config h t turn ip := by
  rw [sweep_of_run run, (Recorded.of_run run).bindings]
  constructor
  · intro current turn ip reply sent entry kept
    have member : offeredBinding config h (turn, ip) ∈ recorded config h :=
      mem_recorded.mpr ⟨turn, ip, reply, sent, entry, kept, rfl⟩
    have running := current _ member
    rwa [leaseOver_offeredBinding, not_not] at running
  · intro running b member
    obtain ⟨turn, ip, reply, sent, entry, kept, rfl⟩ := mem_recorded.mp member
    rw [leaseOver_offeredBinding, not_not]
    exact running turn ip reply sent entry kept

/-- At the end of its 7200 seconds the lease of an OFFER is still on. -/
theorem sweep_expires_at_end : ∃ h s, Run serve (Server.fresh lanPool lanConfig) h s ∧
    h.map Prod.fst = [(discover macA).turn] ∧ s.bindings.length = 1 ∧
    ∀ b ∈ sweep 7200 s.bindings, ¬ b.leaseOver 7200 := by
  obtain ⟨s, h, run, inputs, check⟩ := @Run.of_check _ _ _ serve (Server.fresh lanPool lanConfig)
    [(discover macA).turn]
    (fun s h => s.bindings.length == 1 && h.all fun e => e.2.givenUp == none) (by decide)
  obtain ⟨single, kept⟩ := Bool.and_eq_true_iff.mp check
  refine ⟨h, s, run, inputs, eq_of_beq single, (sweep_expires_iff run 7200).mpr ?_⟩
  intro turn ip reply sent entry _
  have unreleased : ¬ releases ip h = true := by
    intro release
    obtain ⟨turn', entry'⟩ := released_of_releases release
    have gave := eq_of_beq (List.all_eq_true.mp kept _ entry')
    cases gave
  have sender : turn ∈ h.map Prod.fst := List.mem_map_of_mem entry
  rw [inputs, List.reverse_singleton, List.mem_singleton] at sender
  rw [offerCurrent, if_neg unreleased, sender]
  decide

/-- A second later it is over, and the sweep leaves the binding in the list. -/
theorem sweep_keeps_lease_over : ∃ h s, Run serve (Server.fresh lanPool lanConfig) h s ∧
    h.map Prod.fst = [(discover macA).turn] ∧ ∃ b ∈ sweep 7201 s.bindings, b.leaseOver 7201 := by
  obtain ⟨s, h, run, inputs, check⟩ := @Run.of_check _ _ _ serve (Server.fresh lanPool lanConfig)
    [(discover macA).turn]
    (fun s _ => (sweep 7201 s.bindings).any fun b => b.isStatic == .dynamic && decide (b.leaseTime < 7201))
    (by decide)
  obtain ⟨b, member, ended⟩ := List.any_eq_true.mp check
  obtain ⟨dynamic, past⟩ := Bool.and_eq_true_iff.mp ended
  exact ⟨h, s, run, inputs, b, member, eq_of_beq dynamic, of_decide_eq_true past⟩

end Expiry

end DhcpServer
