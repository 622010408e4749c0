import DhcpServer.Client
import DhcpServer.Step

/-!
# Address safety

`Allocated` is the invariant of the binding list: distinct addresses of the range, none past
the cursor. The cursor only moves forward, so an address past it was never handed out.
-/

namespace DhcpServer
set_option autoImplicit false
open Lib

/-- A binding of a server that started on `pool` and whose cursor has come to `cursor`. -/
structure Placed (pool : IpPoolInd) (cursor : BitVec 32) (b : IpBinding) : Prop where
  first : pool.ipFirst ≤ b.address
  last : b.address ≤ pool.ipLast
  cursor : b.address ≤ cursor
  dynamic : b.isStatic = .dynamic

/-- A server that started on `pool` with no bindings. -/
structure Allocated (pool : IpPoolInd) (s : Server) : Prop where
  first : s.pool.ipFirst = pool.ipFirst
  last : s.pool.ipLast = pool.ipLast
  placed : ∀ b ∈ s.bindings, Placed pool s.pool.ipCurrent b
  distinct : (s.bindings.map IpBinding.address).Nodup

namespace Allocated
variable {pool : IpPoolInd} {s t : Server} {turn : Turn} {action : Action}

theorem fresh (pool : IpPoolInd) (config : DhcpConfig) : Allocated pool (Server.fresh pool config) where
  first := rfl
  last := rfl
  placed := nofun
  distinct := List.nodup_nil

theorem bounds (inv : Allocated pool s) : CursorBounds s.pool s.bindings :=
  fun b member => (inv.placed b member).cursor

theorem dynamic (inv : Allocated pool s) : ∀ b ∈ s.bindings, b.isStatic = .dynamic :=
  fun b member => (inv.placed b member).dynamic

/-- Losing a binding. -/
theorem remove (inv : Allocated pool s) {front back : BindingList} {b : IpBinding}
    (split : s.bindings = front ++ b :: back) : Allocated pool { s with bindings := front ++ back } where
  first := inv.first
  last := inv.last
  placed := forall_remove (split ▸ inv.placed)
  distinct := (split ▸ inv.distinct).sublist ((remove_sublist front b back).map _)

/-- Changing a binding in place, but neither its address nor how it was assigned. -/
theorem update (inv : Allocated pool s) {front back : BindingList} {b c : IpBinding}
    (split : s.bindings = front ++ b :: back) (address : c.address = b.address)
    (isStatic : c.isStatic = b.isStatic) : Allocated pool { s with bindings := front ++ c :: back } where
  first := inv.first
  last := inv.last
  placed := forall_replace (split ▸ inv.placed) fun here =>
    ⟨address ▸ here.first, address ▸ here.last, address ▸ here.cursor, isStatic ▸ here.dynamic⟩
  distinct := by
    have distinct := inv.distinct
    rw [split] at distinct
    simpa [address] using distinct

/-- Moving the cursor forward. -/
theorem advance (inv : Allocated pool s) {cursor : BitVec 32} (forward : s.pool.ipCurrent ≤ cursor) :
    Allocated pool { s with pool := { s.pool with ipCurrent := cursor } } where
  first := inv.first
  last := inv.last
  placed := fun b member =>
    { inv.placed b member with cursor := BitVec.le_trans (inv.placed b member).cursor forward }
  distinct := inv.distinct

/-- Binding the next address. -/
theorem insert (inv : Allocated pool s) (room : s.pool.ipCurrent < s.pool.ipLast)
    (range : s.pool.ipFirst ≤ s.pool.ipLast) (turn : Turn) :
    Allocated pool { s with
      pool := { s.pool with ipCurrent := s.pool.nextAddress }
      bindings := newBinding turn s.config s.pool.nextAddress :: s.bindings } where
  first := inv.first
  last := inv.last
  placed := by
    have past := ipCurrent_lt_nextAddress room
    show ∀ b ∈ newBinding turn s.config s.pool.nextAddress :: s.bindings, Placed pool s.pool.nextAddress b
    refine List.forall_mem_cons.mpr ⟨⟨?_, ?_, BitVec.le_refl _, rfl⟩, (inv.advance (BitVec.le_of_lt past)).placed⟩
    · exact inv.first ▸ nextAddress_ge room
    · exact inv.last ▸ nextAddress_le room range
  distinct := by
    have past := ipCurrent_lt_nextAddress room
    apply List.nodup_cons.mpr
    refine ⟨fun member => ?_, inv.distinct⟩
    obtain ⟨b, member, same⟩ := List.mem_map.mp member
    have bound := inv.bounds b member
    rw [same] at bound
    exact absurd past (BitVec.not_lt.mpr bound)

/-- **Every turn keeps the addresses distinct and in range.** -/
theorem served (inv : Allocated pool s) (served : Served s turn t action) : Allocated pool t := by
  cases served with
  | ignored => exact inv
  | full => exact inv
  | missed _ room offer =>
    rw [offer_eq_miss inv.bounds room offer]
    exact inv
  | outOfMemory _ room offer nonzero =>
    obtain ⟨-, -, rfl⟩ := offer_eq_next inv.bounds room offer nonzero
    exact inv.advance (BitVec.le_of_lt (ipCurrent_lt_nextAddress room))
  | offered _ room offer nonzero =>
    obtain ⟨range, rfl, rfl⟩ := offer_eq_next inv.bounds room offer nonzero
    exact inv.insert room range turn
  | noBinding => exact inv
  | acked => exact ⟨inv.first, inv.last, inv.placed, inv.distinct⟩
  | declined _ search =>
    obtain ⟨front, back, split, -, -, removed, -⟩ := searchBinding_split search
    rw [removed]
    exact inv.remove split
  | released _ search =>
    obtain ⟨front, back, split, -, -, -, updated⟩ := searchBinding_split search
    rw [updated]
    exact inv.update split rfl rfl
  | refused => exact inv
  | informed => exact inv
  | nacked => exact inv

theorem of_run {config : DhcpConfig} {h : History} (run : Run serve (Server.fresh pool config) h s) :
    Allocated pool s :=
  run.preserves _ (fun _ _ _ _ inv stepped => inv.served (served_of_serve stepped)) (fresh pool config)

end Allocated

/-- **No double allocation.** Whatever messages the worker handles, the bound addresses are
pairwise distinct addresses of the range, and the range is the one the server started with. -/
theorem no_double_allocation {pool : IpPoolInd} {config : DhcpConfig} {h : History} {s : Server}
    (run : Run serve (Server.fresh pool config) h s) :
    s.bindings.Pairwise (fun b c => b.address ≠ c.address) ∧
      (∀ b ∈ s.bindings, pool.ipFirst ≤ b.address ∧ b.address ≤ pool.ipLast) ∧
      s.pool.ipFirst = pool.ipFirst ∧ s.pool.ipLast = pool.ipLast := by
  have inv := Allocated.of_run run
  refine ⟨List.pairwise_map.mp inv.distinct, fun b member => ?_, inv.first, inv.last⟩
  exact ⟨(inv.placed b member).first, (inv.placed b member).last⟩

theorem no_double_allocation_two_clients : ∃ h s, Run serve (Server.fresh lanPool lanConfig) h s ∧
    s.bindings.map IpBinding.address = [0xC0A80111#32, 0xC0A80110#32] ∧
    s.bindings.Pairwise (fun b c => b.address ≠ c.address) ∧
      (∀ b ∈ s.bindings, lanPool.ipFirst ≤ b.address ∧ b.address ≤ lanPool.ipLast) ∧
      s.pool.ipFirst = lanPool.ipFirst ∧ s.pool.ipLast = lanPool.ipLast := by
  obtain ⟨s, h, run, -, check⟩ := @Run.of_check _ _ _ serve (Server.fresh lanPool lanConfig)
    [(discover macA).turn, (discover macB).turn]
    (fun s _ => s.bindings.map IpBinding.address == [0xC0A80111#32, 0xC0A80110#32]) (by decide)
  exact ⟨h, s, run, eq_of_beq check, no_double_allocation run⟩

/-- A reachable server never gets stuck in the allocation loop. -/
theorem handleClient_not_hung {pool : IpPoolInd} {config : DhcpConfig} {h : History} {s : Server}
    (run : Run serve (Server.fresh pool config) h s) (turn : Turn) : handleClient s turn ≠ .hung := by
  have bounds := (Allocated.of_run run).bounds
  unfold handleClient
  split
  · nofun
  · unfold sendDHCPOffer
    split
    · nofun
    · rename_i room
      rcases offerIpAvailable_cases bounds (BitVec.not_le.mp room) with ⟨-, offer⟩ | ⟨-, offer⟩
      · rw [offer]
        simp
      · rw [offer]
        simp only
        split
        · nofun
        · split <;> nofun
  · unfold sendDHCPAck
    split
    · nofun
    · simp only
      split <;> nofun
  · unfold handleDHCPDecline
    simp only
    split
    · nofun
    · split <;> nofun
  · unfold handleDHCPRelease
    simp only
    split
    · nofun
    · split <;> nofun
  · unfold handleDHCPInformReply
    split <;> nofun
  · unfold sendDHCPNACK
    split <;> nofun

end DhcpServer
