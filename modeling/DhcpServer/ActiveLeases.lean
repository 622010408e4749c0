import DhcpServer.Leases

/-!
# How many leases a client has

`send_DHCP_Offer` never looks at the bindings a client has already, so every OFFER adds one. The
number of active leases is a matter of accounting, and bounded by one only as far as the clients
see to it.
-/

namespace DhcpServer
set_option autoImplicit false
open Lib

/-- The number of `ASSOCIATED` bindings of an identifier. -/
def activeLeases (c : ClientIdent) (s : Server) : Nat := s.bindings.countP (IpBinding.leasedTo c)

section ActiveLeases
variable {pool : IpPoolInd} {config : DhcpConfig} {h : History} {s t : Server} {turn : Turn} {action : Action}
  {c : ClientIdent}

theorem activeLeases_eq_outstanding (run : Run serve (Server.fresh pool config) h s) :
    activeLeases c s = (Ledger.outstanding c (book h)).length := by
  rw [activeLeases, ← leases_length, (Reflects.of_run run).2.leases]

/-- An OFFER adds a lease. -/
theorem activeLeases_offered (run : Run serve (Server.fresh pool config) h s) {ip : BitVec 32} {reply : Reply}
    {sent : Bool} (stepped : serve s turn = some (t, .offered ip reply sent)) :
    activeLeases turn.ident t = activeLeases turn.ident s + 1 := by
  rw [activeLeases_eq_outstanding (run.snoc stepped), activeLeases_eq_outstanding run, book_cons]
  simp [Action.entry, Ledger.outstanding]

/-- Nothing else does. -/
theorem activeLeases_step (run : Run serve (Server.fresh pool config) h s)
    (stepped : serve s turn = some (t, action))
    (other : ∀ ip reply sent, action = .offered ip reply sent → turn.ident ≠ c) :
    activeLeases c t ≤ activeLeases c s := by
  rw [activeLeases_eq_outstanding (run.snoc stepped), activeLeases_eq_outstanding run, book_cons]
  cases entry : action.entry turn with
  | none => exact Nat.le_refl _
  | some e =>
    apply Ledger.outstanding_cons_length
    rintro x rfl
    cases action <;> simp only [Action.entry, reduceCtorEq, Option.some.injEq, Ledger.Entry.grant.injEq] at entry
    exact other _ _ _ rfl entry.1

/-- **The leases of a client are its OFFERs less its accepted declines and releases.** All along a
run it has at most one exactly when none of the run's OFFERs went to it while it had one. -/
theorem active_leases_iff (run : Run serve (Server.fresh pool config) h s) (c : ClientIdent) :
    activeLeases c s + Ledger.retires c (book h) = Ledger.grants c (book h) ∧
    ((∀ older u, older <:+ h → Run serve (Server.fresh pool config) older u → activeLeases c u ≤ 1) ↔
      ∀ older u turn ip reply sent, (turn, .offered ip reply sent) :: older <:+ h → turn.ident = c →
        Run serve (Server.fresh pool config) older u → activeLeases c u = 0) := by
  constructor
  · rw [activeLeases_eq_outstanding run]
    exact (Reflects.of_run run).2.kept.outstanding_length c
  constructor
  · rintro bounded older u turn ip reply sent offer rfl before
    obtain ⟨newer, rfl⟩ := offer
    obtain ⟨u', t, before', stepped, -⟩ := run.step_at
    cases before.unique before'
    have after := bounded _ t ⟨newer, rfl⟩ (before.snoc stepped)
    rw [activeLeases_offered before stepped] at after
    omega
  · intro unleased older u suffix before
    induction before with
    | start => exact Nat.zero_le 1
    | @snoc older v u turn action before stepped ih =>
      have bound := ih ((List.suffix_cons _ _).trans suffix)
      by_cases offer : ∃ ip reply sent, action = .offered ip reply sent ∧ turn.ident = c
      · obtain ⟨ip, reply, sent, rfl, rfl⟩ := offer
        have added := activeLeases_offered before stepped
        have none_before := unleased older v turn ip reply sent suffix rfl before
        omega
      · have kept := activeLeases_step (c := c) before stepped fun ip reply sent made owner =>
          offer ⟨ip, reply, sent, made, owner⟩
        exact Nat.le_trans kept bound

/-- The turn is no OFFER to a client that has a lease. -/
def offersUnleased (c : ClientIdent) (s : Server) (turn : Turn) : Bool :=
  match serve s turn with
  | some (_, .offered _ _ _) => turn.ident != c || activeLeases c s == 0
  | _ => true

/-- A client that gives its address back before it asks for another one. -/
theorem active_leases_released : ∃ h s, Run serve (Server.fresh lanPool lanConfig) h s ∧
    h.map Prod.fst = [(discover macA).turn, (releaseOf macA 0xC0A80110#32).turn, (discover macA).turn] ∧
    Ledger.retires (discover macA).turn.ident (book h) = 1 ∧
    activeLeases (discover macA).turn.ident s + 1 = Ledger.grants (discover macA).turn.ident (book h) ∧
    ∀ older u, older <:+ h → Run serve (Server.fresh lanPool lanConfig) older u →
      activeLeases (discover macA).turn.ident u ≤ 1 := by
  obtain ⟨s, h, checked, inputs, check⟩ := @Run.of_check _ _ _
    (guarded (offersUnleased (discover macA).turn.ident) serve) (Server.fresh lanPool lanConfig)
    [(discover macA).turn, (releaseOf macA 0xC0A80110#32).turn, (discover macA).turn]
    (fun _ h => Ledger.retires (discover macA).turn.ident (book h) == 1) (by decide)
  obtain ⟨run, unleased⟩ := checked.of_guarded
  have retired := eq_of_beq check
  obtain ⟨accounts, bounded⟩ := active_leases_iff run (discover macA).turn.ident
  rw [retired] at accounts
  refine ⟨h, s, run, inputs, retired, accounts, bounded.mpr ?_⟩
  intro older u turn ip reply sent suffix owner before
  obtain ⟨newer, rfl⟩ := suffix
  obtain ⟨u', t, before', stepped, -⟩ := run.step_at
  cases before.unique before'
  have passes : offersUnleased (discover macA).turn.ident u turn = true := unleased older u turn _ ⟨newer, rfl⟩ before
  simp only [offersUnleased, stepped] at passes
  rcases Bool.or_eq_true_iff.mp passes with stranger | none
  · exact (bne_iff_ne.mp stranger owner).elim
  · exact eq_of_beq none

/-- A repeated DISCOVER gives its client a second lease. -/
theorem two_leases_of_one_client : ∃ h s, Run serve (Server.fresh lanPool lanConfig) h s ∧
    h.map Prod.fst = [(discover macA).turn, (discover macA).turn] ∧
    activeLeases (discover macA).turn.ident s = 2 := by
  obtain ⟨s, h, run, inputs, check⟩ := @Run.of_check _ _ _ serve (Server.fresh lanPool lanConfig)
    [(discover macA).turn, (discover macA).turn]
    (fun s _ => activeLeases (discover macA).turn.ident s == 2) (by decide)
  exact ⟨h, s, run, inputs, eq_of_beq check⟩

end ActiveLeases

end DhcpServer
