import DhcpServer.Lib.Ledger
import DhcpServer.Safety

/-!
# The binding list is a ledger of leases

Read as entries, a history's OFFERs are grants of addresses to clients and its accepted
declines and releases are retirements. `Reflects` says that for every client the `ASSOCIATED`
bindings, in list order, are exactly what the book of the history has outstanding. The handlers
only ever look at the first of them, so what they do is a matter of the book.
-/

namespace DhcpServer
set_option autoImplicit false
open Lib

/-- The addresses leased to `c`, in list order. -/
def leases (c : ClientIdent) (bindings : BindingList) : List (BitVec 32) :=
  (bindings.filter (IpBinding.leasedTo c)).map IpBinding.address

/-- What an action enters into the book. -/
def Action.entry (turn : Turn) : Action → Option (Ledger.Entry ClientIdent (BitVec 32))
  | .offered _ reply _ => some (.grant turn.ident (ntohl reply.message.yiaddr))
  | .declined ip => some (.retire turn.ident ip)
  | .released ip => some (.retire turn.ident ip)
  | _ => none

/-- The OFFERs and the accepted declines and releases of a history, newest first. -/
def book (h : History) : Ledger.Book ClientIdent (BitVec 32) := h.filterMap fun e => e.2.entry e.1

theorem book_cons (turn : Turn) (action : Action) (h : History) :
    book ((turn, action) :: h) = (action.entry turn).toList ++ book h := by
  cases e : action.entry turn <;> simp [book, e]

theorem book_append (newer older : History) : book (newer ++ older) = book newer ++ book older :=
  List.filterMap_append

/-! ## Leases around a binding -/

section Leases
variable {c : ClientIdent} {front back : BindingList} {b : IpBinding}

theorem leases_append : leases c (front ++ back) = leases c front ++ leases c back := by
  simp [leases]

theorem leases_cons (lease : b.leasedTo c = true) : leases c (b :: back) = b.address :: leases c back := by
  simp [leases, lease]

theorem leases_skip (other : b.leasedTo c = false) : leases c (b :: back) = leases c back := by
  simp [leases, other]

theorem leases_none (none : ∀ x ∈ front, x.leasedTo c = false) : leases c front = [] := by
  rw [leases, List.filter_eq_nil_iff.mpr fun x member => by simp [none x member]]
  rfl

theorem leases_length (bindings : BindingList) :
    (leases c bindings).length = bindings.countP (IpBinding.leasedTo c) := by
  rw [leases, List.length_map, List.countP_eq_length_filter]

theorem mem_leases {bindings : BindingList} {a : BitVec 32} :
    a ∈ leases c bindings ↔ ∃ b ∈ bindings, b.leasedTo c = true ∧ b.address = a := by
  simp [leases, and_assoc]

/-- Taking the first lease of `c` away, or ending it in place, leaves the other leases. -/
theorem leases_retire (first : ∀ x ∈ front, x.leasedTo c = false) (lease : b.leasedTo c = true)
    (d : ClientIdent) (nodup : (leases c (front ++ b :: back)).Nodup) :
    leases d (front ++ back) =
      if c = d then (leases d (front ++ b :: back)).filter (· != b.address)
      else leases d (front ++ b :: back) := by
  split
  · rename_i same
    subst same
    rw [leases_append, leases_none first, List.nil_append, leases_cons lease] at nodup
    rw [leases_append, leases_append, leases_none first, leases_cons lease]
    obtain ⟨fresh, -⟩ := List.nodup_cons.mp nodup
    simp only [List.nil_append, List.filter_cons, bne_self_eq_false, Bool.false_eq_true, if_false]
    symm
    apply List.filter_eq_self.mpr
    intro a member
    rw [bne_iff_ne]
    rintro rfl
    exact fresh member
  · rename_i other
    have skip : b.leasedTo d = false := by
      rw [Bool.eq_false_iff]
      intro lease'
      exact other ((IpBinding.leasedTo_iff.mp lease).1.symm.trans (IpBinding.leasedTo_iff.mp lease').1)
    rw [leases_append, leases_append, leases_skip skip]

theorem leases_released (d : ClientIdent) : leases d (front ++ b.release :: back) = leases d (front ++ back) := by
  have ended : b.release.leasedTo d = false := by simp [IpBinding.leasedTo]
  rw [leases_append, leases_append, leases_skip ended]

end Leases

/-! ## The look-ups find the first lease -/

section Lookup
variable {bindings : BindingList} {c : ClientIdent} {wanted : Assignment}

/-- A look-up for `ASSOCIATED` finds the first lease. -/
theorem searchBinding_lease (dynamic : ∀ b ∈ bindings, b.isStatic = .dynamic) (accepts : wanted ≠ .static)
    {b : Fin bindings.length} (search : searchBinding bindings c wanted .associated = some b) :
    ∃ front back, bindings = front ++ bindings.get b :: back ∧ (bindings.get b).leasedTo c = true ∧
      (∀ x ∈ front, x.leasedTo c = false) ∧ removeBinding bindings b = front ++ back ∧
      updateBinding bindings b IpBinding.release = front ++ (bindings.get b).release :: back := by
  obtain ⟨front, back, split, holds, before, removed, updated⟩ := searchBinding_split search
  have listed : bindings.get b ∈ bindings := List.get_mem _ _
  refine ⟨front, back, split, ?_, ?_, removed, updated _⟩
  · rwa [IpBinding.matches_associated (dynamic _ listed) accepts] at holds
  · intro x member
    have listed : x ∈ bindings := by rw [split]; exact List.mem_append_left _ member
    rw [← IpBinding.matches_associated (dynamic x listed) accepts]
    exact before x member

/-- **A look-up for `ASSOCIATED` returns the newest lease**, and fails when there is none. -/
theorem head_leases (dynamic : ∀ b ∈ bindings, b.isStatic = .dynamic) (accepts : wanted ≠ .static) :
    (leases c bindings).head? =
      (searchBinding bindings c wanted .associated).map fun b => (bindings.get b).address := by
  cases search : searchBinding bindings c wanted .associated with
  | none =>
    have unmatched := findFin_none.mp search
    rw [leases_none]
    · rfl
    · intro x member
      rw [← IpBinding.matches_associated (dynamic x member) accepts]
      exact unmatched x member
  | some b =>
    obtain ⟨front, back, split, lease, first, -⟩ := searchBinding_lease dynamic accepts search
    conv_lhs => rw [split]
    rw [leases_append, leases_none first, leases_cons lease]
    rfl

end Lookup

/-! ## The simulation -/

/-- The bindings are the leases the book has outstanding, and the cursor is past every grant. -/
structure Reflects (s : Server) (b : Ledger.Book ClientIdent (BitVec 32)) : Prop where
  kept : Ledger.Kept b
  granted : ∀ a ∈ Ledger.granted b, a ≤ s.pool.ipCurrent
  leases : ∀ c, leases c s.bindings = Ledger.outstanding c b

namespace Reflects
variable {pool : IpPoolInd} {s t : Server} {turn : Turn} {action : Action}
  {b : Ledger.Book ClientIdent (BitVec 32)}

theorem fresh (pool : IpPoolInd) (config : DhcpConfig) : Reflects (Server.fresh pool config) [] where
  kept := .nil
  granted := nofun
  leases := fun _ => rfl

/-- The state may change as long as the bindings stay and the cursor does not move back. -/
theorem frame (inv : Reflects s b) (bindings : t.bindings = s.bindings)
    (forward : s.pool.ipCurrent ≤ t.pool.ipCurrent) : Reflects t b where
  kept := inv.kept
  granted := fun a member => BitVec.le_trans (inv.granted a member) forward
  leases := fun c => by rw [bindings, inv.leases c]

/-- An OFFER is a grant of a fresh address. -/
theorem grant (inv : Reflects s b) (room : s.pool.ipCurrent < s.pool.ipLast) (turn : Turn) :
    Reflects { s with
      pool := { s.pool with ipCurrent := s.pool.nextAddress }
      bindings := newBinding turn s.config s.pool.nextAddress :: s.bindings }
      (.grant turn.ident s.pool.nextAddress :: b) where
  kept := by
    apply inv.kept.grant
    intro member
    exact absurd (ipCurrent_lt_nextAddress room) (BitVec.not_lt.mpr (inv.granted _ member))
  granted := by
    have forward := BitVec.le_of_lt (ipCurrent_lt_nextAddress room)
    exact List.forall_mem_cons.mpr ⟨BitVec.le_refl _, (inv.frame (t := { s with
      pool := { s.pool with ipCurrent := s.pool.nextAddress } }) rfl forward).granted⟩
  leases := by
    intro c
    rw [Ledger.outstanding, ← inv.leases c]
    split
    · rename_i same
      exact leases_cons (by simp [IpBinding.leasedTo, newBinding, same])
    · rename_i other
      exact leases_skip (by simp [IpBinding.leasedTo, newBinding, other])

/-- Taking away the first lease of a client retires it. -/
theorem retire (inv : Reflects s b) {c : ClientIdent} {front back : BindingList} {x : IpBinding}
    (split : s.bindings = front ++ x :: back) (lease : x.leasedTo c = true)
    (first : ∀ y ∈ front, y.leasedTo c = false) (same_pool : t.pool = s.pool)
    (after : ∀ d, DhcpServer.leases d t.bindings = DhcpServer.leases d (front ++ back)) :
    Reflects t (.retire c x.address :: b) where
  kept := by
    apply inv.kept.retire
    rw [← inv.leases c, mem_leases]
    exact ⟨x, by rw [split]; simp, lease, rfl⟩
  granted := by
    rw [same_pool]
    exact inv.granted
  leases := by
    intro d
    have nodup : (DhcpServer.leases c (front ++ x :: back)).Nodup := by
      rw [← split, inv.leases c]
      exact inv.kept.outstanding_nodup c
    rw [after d, leases_retire first lease d nodup, ← split, inv.leases d, Ledger.outstanding]

/-- **Every turn keeps the list and the book in step.** -/
theorem served (alloc : Allocated pool s) (inv : Reflects s b) (served : Served s turn t action) :
    Reflects t ((action.entry turn).toList ++ b) := by
  cases served with
  | ignored => exact inv
  | full => exact inv
  | missed _ room offer =>
    rw [offer_eq_miss alloc.bounds room offer]
    exact inv
  | outOfMemory _ room offer nonzero =>
    obtain ⟨-, -, rfl⟩ := offer_eq_next alloc.bounds room offer nonzero
    exact inv.frame rfl (BitVec.le_of_lt (ipCurrent_lt_nextAddress room))
  | offered _ room offer nonzero =>
    obtain ⟨-, rfl, rfl⟩ := offer_eq_next alloc.bounds room offer nonzero
    rw [Action.entry, offerReply, offerMessage_yiaddr]
    exact inv.grant room turn
  | noBinding => exact inv
  | acked => exact inv.frame rfl (BitVec.le_refl _)
  | declined _ search =>
    obtain ⟨front, back, split, lease, first, removed, -⟩ := searchBinding_lease alloc.dynamic (by decide) search
    refine inv.retire split lease first rfl fun d => ?_
    rw [removed]
  | released _ search =>
    obtain ⟨front, back, split, lease, first, -, updated⟩ := searchBinding_lease alloc.dynamic (by decide) search
    refine inv.retire split lease first rfl fun d => ?_
    rw [updated, leases_released]
  | refused => exact inv
  | informed => exact inv
  | nacked => exact inv

/-- **The server simulates the ledger** along every run. -/
theorem of_run {config : DhcpConfig} {h : History} (run : Run serve (Server.fresh pool config) h s) :
    Allocated pool s ∧ Reflects s (book h) := by
  apply run.invariant (fun h s => Allocated pool s ∧ Reflects s (book h)) ⟨.fresh pool config, .fresh pool config⟩
  rintro h s turn t action ⟨alloc, inv⟩ stepped
  have served := served_of_serve stepped
  rw [book_cons]
  exact ⟨alloc.served served, inv.served alloc served⟩

end Reflects

end DhcpServer
