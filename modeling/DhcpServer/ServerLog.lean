import DhcpServer.ConfigKept
import DhcpServer.Record

/-!
# The server as a function of its log

What the worker has done says what its state is: the bindings are those recorded, the configuration is the
loaded one or that of the ACKs, and the cursor has moved one address for each OFFER and for each one that
failed for want of memory. So a server can be set up again from its log.
-/

namespace DhcpServer
set_option autoImplicit false
open Lib

/-- An address was taken from the pool, for an OFFER or in vain. -/
def Action.takes : Action → Bool
  | .offered _ _ _ => true
  | .outOfMemory => true
  | _ => false

/-- How many addresses the handlers have taken from the pool. -/
def addressesTaken (h : History) : Nat := h.countP fun e => e.2.takes

/-- How many declines were accepted. -/
def declinesMade (h : History) : Nat := h.countP fun e => match e.2 with
  | .declined _ => true
  | _ => false

/-- How many releases were accepted. -/
def releasesMade (h : History) : Nat := h.countP fun e => match e.2 with
  | .released _ => true
  | _ => false

/-- The server of a log, for a range and the configuration loaded. -/
def Server.ofLog (first last : BitVec 32) (config : DhcpConfig) (h : History) : Server where
  pool :=
    { ipFirst := first
      ipLast := last
      ipCurrent := first + BitVec.ofNat 32 (addressesTaken h) }
  bindings := recorded config h
  config := if acked h then ackConfig config else config

/-- The bindings with a status. -/
def countOf (status : BindingStatus) (bindings : BindingList) : Nat := bindings.countP fun b => b.status == status

/-- What was offered is leased, released or declined. -/
structure Balanced (h : History) (s : Server) : Prop where
  leased : countOf .associated s.bindings + releasesMade h + declinesMade h = (offersMade h).length
  ended : countOf .released s.bindings = releasesMade h
  only : ∀ b ∈ s.bindings, b.status = .associated ∨ b.status = .released

section Log
variable {first last : BitVec 32} {config : DhcpConfig} {pool : IpPoolInd} {h : History} {s t : Server} {turn : Turn}
  {action : Action}

/-! ## The cursor -/

/-- The cursor of a pool that started at its first address. -/
structure Counted (first last : BitVec 32) (h : History) (s : Server) : Prop where
  cursor : s.pool.ipCurrent.toNat = first.toNat + addressesTaken h
  within : addressesTaken h ≤ last.toNat - first.toNat

theorem addressesTaken_cons (turn : Turn) (action : Action) (h : History) :
    addressesTaken ((turn, action) :: h) = addressesTaken h + if action.takes then 1 else 0 := List.countP_cons

/-- In a range with room the next address is the one behind the cursor. -/
theorem Counted.takes (alloc : Allocated (.ofRange first last) s) (inv : Counted first last h s)
    (room : s.pool.ipCurrent < s.pool.ipLast) : s.pool.nextAddress.toNat = first.toNat + (addressesTaken h + 1) ∧
      addressesTaken h + 1 ≤ last.toNat - first.toNat := by
  have first' : s.pool.ipFirst = first := alloc.first
  have last' : s.pool.ipLast = last := alloc.last
  have cursor := inv.cursor
  have below := last.isLt
  rw [last', BitVec.lt_def, cursor] at room
  constructor
  · rw [IpPoolInd.nextAddress, first', if_neg (by rw [BitVec.lt_def]; omega), toNat_add_one (by omega), cursor,
      Nat.add_assoc]
  · omega

theorem Counted.served (alloc : Allocated (.ofRange first last) s) (inv : Counted first last h s)
    (served : Served s turn t action) : Counted first last ((turn, action) :: h) t := by
  have unmoved : ∀ {action t}, Action.takes action = false → t.pool = s.pool →
      Counted first last ((turn, action) :: h) t := by
    intro action t idle same
    refine ⟨?_, ?_⟩
    · rw [addressesTaken_cons, idle, same]
      exact inv.cursor
    · rw [addressesTaken_cons, idle]
      exact inv.within
  have moved : ∀ {action t}, Action.takes action = true → s.pool.ipCurrent < s.pool.ipLast →
      t.pool.ipCurrent = s.pool.nextAddress → Counted first last ((turn, action) :: h) t := by
    intro action t takes room same
    obtain ⟨cursor, within⟩ := inv.takes alloc room
    refine ⟨?_, ?_⟩
    · rw [addressesTaken_cons, takes, same]
      exact cursor
    · rw [addressesTaken_cons, takes]
      exact within
  cases served with
  | missed _ room offer => exact unmoved rfl (offer_eq_miss alloc.bounds room offer)
  | outOfMemory _ room offer nonzero =>
    obtain ⟨-, -, rfl⟩ := offer_eq_next alloc.bounds room offer nonzero
    exact moved rfl room rfl
  | offered _ room offer nonzero =>
    obtain ⟨-, -, rfl⟩ := offer_eq_next alloc.bounds room offer nonzero
    exact moved rfl room rfl
  | _ => exact unmoved rfl rfl

theorem Counted.of_run (run : Run serve (Server.fresh (.ofRange first last) config) h s) : Counted first last h s := by
  induction run with
  | start => exact ⟨rfl, Nat.zero_le _⟩
  | snoc before stepped ih => exact ih.served (Allocated.of_run before) (served_of_serve stepped)

/-! ## The bindings -/

theorem countOf_append (status : BindingStatus) (front back : BindingList) :
    countOf status (front ++ back) = countOf status front + countOf status back := List.countP_append

theorem countOf_cons (status : BindingStatus) (b : IpBinding) (back : BindingList) :
    countOf status (b :: back) = countOf status back + if b.status = status then 1 else 0 := by
  rw [countOf, List.countP_cons, countOf]
  simp only [beq_iff_eq]

theorem declinesMade_declined (turn : Turn) (ip : BitVec 32) (h : History) :
    declinesMade ((turn, .declined ip) :: h) = declinesMade h + 1 := List.countP_cons_of_pos rfl

theorem releasesMade_released (turn : Turn) (ip : BitVec 32) (h : History) :
    releasesMade ((turn, .released ip) :: h) = releasesMade h + 1 := List.countP_cons_of_pos rfl

/-- A turn that offers nothing, and takes nothing back. -/
theorem Balanced.frame (inv : Balanced h s) (bindings : t.bindings = s.bindings)
    (offered : offersMade ((turn, action) :: h) = offersMade h)
    (declined : declinesMade ((turn, action) :: h) = declinesMade h)
    (released : releasesMade ((turn, action) :: h) = releasesMade h) : Balanced ((turn, action) :: h) t := by
  constructor
  · rw [bindings, offered, declined, released]
    exact inv.leased
  · rw [bindings, released]
    exact inv.ended
  · rw [bindings]
    exact inv.only

/-- What a search for `ASSOCIATED` bindings finds is one. -/
theorem matches_status {ident : ClientIdent} {wanted : Assignment} {b : IpBinding}
    (found : b.matches ident wanted .associated = true) : b.status = .associated := by
  have named : (BindingStatus.associated == BindingStatus.empty) = false := rfl
  rw [IpBinding.matches, named, Bool.false_or, Bool.and_eq_true] at found
  exact beq_iff_eq.mp found.2

theorem countOf_split (status : BindingStatus) (front : BindingList) (b : IpBinding) (back : BindingList) :
    countOf status (front ++ b :: back) = countOf status (front ++ back) + if b.status = status then 1 else 0 := by
  rw [countOf_append, countOf_cons, countOf_append, Nat.add_assoc]

/-- A turn keeps the balance. -/
theorem Balanced.served (inv : Balanced h s) (served : Served s turn t action) :
    Balanced ((turn, action) :: h) t := by
  obtain ⟨leased, ended, only⟩ := inv
  cases served with
  | @offered ip pool _ room offer nonzero =>
    have here : (newBinding turn s.config ip).status = .associated := rfl
    constructor
    · show countOf .associated (_ :: s.bindings) + releasesMade h + declinesMade h = (offersMade h).length + 1
      rw [countOf_cons, if_pos here]
      omega
    · show countOf .released (_ :: s.bindings) = releasesMade h
      rw [countOf_cons, here, if_neg nofun]
      exact ended
    · exact List.forall_mem_cons.mpr ⟨Or.inl here, only⟩
  | @declined b _ search =>
    obtain ⟨front, back, split, found, -, removed, -⟩ := searchBinding_split search
    have status := matches_status found
    rw [split, countOf_split, status] at leased ended
    rw [split] at only
    constructor
    · rw [declinesMade_declined]
      show countOf .associated (removeBinding s.bindings b) + releasesMade h + (declinesMade h + 1) =
        (offersMade h).length
      rw [removed, ← leased, if_pos rfl]
      omega
    · show countOf .released (removeBinding s.bindings b) = releasesMade h
      rw [removed, ← ended, if_neg nofun, Nat.add_zero]
    · show ∀ b' ∈ removeBinding s.bindings b, _
      rw [removed]
      exact forall_remove only
  | @released b _ search =>
    obtain ⟨front, back, split, found, -, -, updated⟩ := searchBinding_split search
    have status := matches_status found
    have after : (s.bindings.get b).release.status = .released := rfl
    rw [split, countOf_split, status] at leased ended
    rw [split] at only
    constructor
    · rw [releasesMade_released]
      show countOf .associated (updateBinding s.bindings b IpBinding.release) + (releasesMade h + 1) +
        declinesMade h = (offersMade h).length
      rw [updated, countOf_split, after, if_neg nofun, ← leased, if_pos rfl]
      omega
    · rw [releasesMade_released]
      show countOf .released (updateBinding s.bindings b IpBinding.release) = releasesMade h + 1
      rw [updated, countOf_split, after, if_pos rfl, ← ended, if_neg nofun, Nat.add_zero]
    · show ∀ b' ∈ updateBinding s.bindings b IpBinding.release, _
      rw [updated]
      exact forall_replace only fun _ => Or.inr rfl
  | _ => exact Balanced.frame ⟨leased, ended, only⟩ rfl rfl rfl rfl

theorem Balanced.of_run (run : Run serve (Server.fresh pool config) h s) : Balanced h s := by
  induction run with
  | start => exact ⟨rfl, rfl, nofun⟩
  | snoc before stepped ih => exact ih.served (served_of_serve stepped)

/-! ## The log -/

/-- The addresses offered are numbered by what was taken before. -/
theorem offer_numbered (run : Run serve (Server.fresh (.ofRange first last) config) h s) {newer older : History}
    {ip : BitVec 32} {reply : Reply} {sent : Bool} (entry : h = newer ++ (turn, .offered ip reply sent) :: older) :
    ip = first + BitVec.ofNat 32 (addressesTaken older + 1) := by
  subst entry
  obtain ⟨u, t, before, stepped, -⟩ := run.step_at
  have alloc := Allocated.of_run before
  have counted := Counted.of_run before
  cases served_of_serve stepped with
  | offered _ room offer nonzero =>
    obtain ⟨-, rfl, -⟩ := offer_eq_next alloc.bounds room offer nonzero
    obtain ⟨cursor, within⟩ := counted.takes alloc room
    have below := last.isLt
    apply BitVec.eq_of_toNat_eq
    rw [cursor, toNat_add_ofNat (by omega)]

end Log

/-- **The server is a function of its log**, and the log adds up: no more addresses are taken than the range has
past its first, each OFFER is of the next one, and what was offered is leased, released or declined. -/
theorem server_of_log {first last : BitVec 32} {config : DhcpConfig} {h : History} {s : Server}
    (run : Run serve (Server.fresh (.ofRange first last) config) h s) :
    s = Server.ofLog first last config h ∧ addressesTaken h ≤ last.toNat - first.toNat ∧ Balanced h s ∧
      ∀ newer turn ip reply sent older, h = newer ++ (turn, .offered ip reply sent) :: older →
        ip = first + BitVec.ofNat 32 (addressesTaken older + 1) := by
  have alloc := Allocated.of_run run
  have counted := Counted.of_run run
  have cursor : s.pool.ipCurrent = first + BitVec.ofNat 32 (addressesTaken h) := by
    have within := counted.within
    have below := last.isLt
    have above := first.isLt
    apply BitVec.eq_of_toNat_eq
    rw [counted.cursor, toNat_add_ofNat (by omega)]
  refine ⟨?_, counted.within, .of_run run, fun newer turn ip reply sent older => offer_numbered run⟩
  obtain ⟨⟨ipFirst, ipLast, ipCurrent⟩, bindings, config'⟩ := s
  obtain rfl : ipFirst = first := alloc.first
  obtain rfl : ipLast = last := alloc.last
  obtain rfl := cursor
  obtain rfl := (Recorded.of_run run).bindings
  obtain rfl := config_of_run run
  rfl

/-- Two OFFERs and a release. -/
theorem server_of_log_release : ∃ h s, Run serve (Server.fresh lanPool lanConfig) h s ∧
    h.map Prod.fst = [(discover macB).turn, (releaseOf macA 0xC0A80110#32).turn, (discover macA).turn] ∧
    s = Server.ofLog lanPool.ipFirst lanPool.ipLast lanConfig h ∧
    addressesTaken h ≤ lanPool.ipLast.toNat - lanPool.ipFirst.toNat ∧ Balanced h s := by
  obtain ⟨s, h, run, inputs, -⟩ := @Run.of_check _ _ _ serve (Server.fresh lanPool lanConfig)
    [(discover macA).turn, (releaseOf macA 0xC0A80110#32).turn, (discover macB).turn] (fun _ _ => true) (by decide)
  obtain ⟨log, within, balanced, -⟩ := server_of_log run
  exact ⟨h, s, run, inputs, log, within, balanced⟩

end DhcpServer
