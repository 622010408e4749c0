import DhcpServer.OfferLoop
import DhcpServer.Step

/-!
# What a failed DISCOVER leaves behind

`send_DHCP_Offer` moves the cursor before it calls `malloc` and inserts the binding before it calls
`sendto`, and takes neither back. `NoTrace` asks that it leaves pool and bindings alone whenever it
returns without having sent an OFFER.
-/

namespace DhcpServer
set_option autoImplicit false
open Lib

/-- An OFFER that `sendto` took. -/
def Action.sent : Action → Bool
  | .offered _ _ sent => sent
  | _ => false

/-- A DISCOVER that yields no OFFER leaves pool and bindings as they were. -/
def NoTrace (s : Server) (turn : Turn) : Prop :=
  ∀ t action, sendDHCPOffer s turn = .returned t action → action.sent = false →
    t.pool = s.pool ∧ t.bindings = s.bindings

section Offer
variable {s : Server} {turn : Turn}

theorem noTrace_full (spent : s.pool.ipLast ≤ s.pool.ipCurrent) : NoTrace s turn := by
  intro t action returned _
  rw [sendDHCPOffer_full spent] at returned
  cases returned
  exact ⟨rfl, rfl⟩

theorem noTrace_forever (room : s.pool.ipCurrent < s.pool.ipLast)
    (offer : offerIpAvailable s.pool s.bindings = none) : NoTrace s turn := by
  intro t action returned _
  rw [sendDHCPOffer_hung room offer] at returned
  cases returned

theorem noTrace_missed (room : s.pool.ipCurrent < s.pool.ipLast) {pool : IpPoolInd}
    (offer : offerIpAvailable s.pool s.bindings = some (0#32, pool)) : NoTrace s turn ↔ pool = s.pool := by
  have returned := @sendDHCPOffer_missed s turn room pool offer
  constructor
  · intro traceless
    exact (traceless _ _ returned rfl).1
  · intro same t action returned' _
    rw [returned] at returned'
    cases returned'
    exact ⟨same, rfl⟩

/-- With an address found, a `malloc` that fails must find the cursor unmoved, and a `sendto` must not fail. -/
theorem noTrace_found (room : s.pool.ipCurrent < s.pool.ipLast) {ip : BitVec 32} {pool : IpPoolInd}
    (offer : offerIpAvailable s.pool s.bindings = some (ip, pool)) (nonzero : ip ≠ 0#32) :
    NoTrace s turn ↔ (turn.mallocOk = false → pool = s.pool) ∧ (turn.mallocOk = true → turn.sendOk = true) := by
  cases malloc : turn.mallocOk with
  | false =>
    have returned := sendDHCPOffer_outOfMemory room offer nonzero malloc
    constructor
    · intro traceless
      exact ⟨fun _ => (traceless _ _ returned rfl).1, nofun⟩
    · rintro ⟨unmoved, -⟩ t action returned' _
      rw [returned] at returned'
      cases returned'
      exact ⟨unmoved rfl, rfl⟩
  | true =>
    have returned := sendDHCPOffer_offered room offer nonzero malloc
    constructor
    · intro traceless
      refine ⟨nofun, fun _ => ?_⟩
      by_contra failed
      -- the binding inserted before the failing `sendto` stays
      have same := (traceless _ _ returned (by simpa [Action.sent] using failed)).2
      exact absurd same (List.cons_ne_self _ _)
    · rintro ⟨-, sends⟩ t action returned' unsent
      rw [returned] at returned'
      cases returned'
      rw [Action.sent, sends rfl] at unsent
      cases unsent

end Offer

/-- The states and answers of the C library in which a failure comes before any change. -/
structure Traceless (s : Server) (turn : Turn) : Prop where
  /-- Past the cursor an address is found and taken, and nothing may fail after that. -/
  past : (∃ a, FreePast s.pool s.bindings a) → turn.mallocOk = true ∧ turn.sendOk = true
  /-- A counter that wraps takes an address behind the cursor; address zero is taken and not offered. -/
  behind : (∀ a, ¬ FreePast s.pool s.bindings a) → s.pool.ipLast = 0xFFFFFFFF#32 →
    (∃ a, Free s.pool s.bindings a ∧ a ≠ s.pool.ipCurrent) →
    ¬ Free s.pool s.bindings 0#32 ∧ turn.mallocOk = true ∧ turn.sendOk = true
  /-- It may come back to the cursor's own address, where the cursor does not move. -/
  again : (∀ a, Free s.pool s.bindings a ↔ a = s.pool.ipCurrent) → s.pool.ipLast = 0xFFFFFFFF#32 →
    s.pool.ipCurrent ≠ 0#32 → turn.mallocOk = true → turn.sendOk = true

/-- An address past the cursor: the cursor moves, and a binding may be inserted. -/
theorem noTrace_past {s : Server} {turn : Turn} {a : BitVec 32} (room : s.pool.ipCurrent < s.pool.ipLast)
    (offer : offerIpAvailable s.pool s.bindings = some (a, { s.pool with ipCurrent := a }))
    (hit : FreePast s.pool s.bindings a) : NoTrace s turn ↔ Traceless s turn := by
  have nonzero : a ≠ 0#32 := by have := hit.1; bv_omega
  have moved : ¬ { s.pool with ipCurrent := a } = s.pool := by
    intro same
    have := congrArg IpPoolInd.ipCurrent same
    have := hit.1
    bv_omega
  rw [noTrace_found room offer nonzero]
  constructor
  · rintro ⟨unmoved, sends⟩
    have malloc : turn.mallocOk = true := by simpa using mt unmoved moved
    have free : ∀ P : Prop, (∀ a, ¬ FreePast s.pool s.bindings a) → P := fun P none => (none a hit).elim
    refine ⟨fun _ => ⟨malloc, sends malloc⟩, fun none => free _ none, fun only => ?_⟩
    exact absurd ((only a).mp hit.2) (by have := hit.1; bv_omega)
  · intro traceless
    obtain ⟨malloc, send⟩ := traceless.past ⟨a, hit⟩
    exact ⟨by simp [malloc], fun _ => send⟩

/-- The counter wrapped around to an address behind the cursor, or to the cursor's own. -/
theorem noTrace_around {s : Server} {turn : Turn} {a : BitVec 32} (room : s.pool.ipCurrent < s.pool.ipLast)
    (offer : offerIpAvailable s.pool s.bindings = some (a, { s.pool with ipCurrent := a }))
    (none : ∀ z, ¬ FreePast s.pool s.bindings z) (last : s.pool.ipLast = 0xFFFFFFFF#32)
    (free : Free s.pool s.bindings a) (least : ∀ z, z < a → ¬ Free s.pool s.bindings z) :
    NoTrace s turn ↔ Traceless s turn := by
  have past : ∀ P : Prop, (∃ a, FreePast s.pool s.bindings a) → P := fun P ⟨z, hit⟩ => (none z hit).elim
  have upto : ∀ z, Free s.pool s.bindings z → a ≤ z ∧ z ≤ s.pool.ipCurrent := fun z free =>
    ⟨BitVec.not_lt.mp fun below => least z below free, BitVec.not_lt.mp fun above => none z ⟨above, free⟩⟩
  by_cases zero : a = 0#32
  · subst zero
    rw [noTrace_missed room offer]
    constructor
    · intro same
      have cursor : s.pool.ipCurrent = 0#32 := (congrArg IpPoolInd.ipCurrent same).symm
      refine ⟨past _, ?_, fun _ _ nonzero => (nonzero cursor).elim⟩
      rintro - - ⟨z, free, other⟩
      have := upto z free
      rw [cursor] at this other
      bv_omega
    · intro traceless
      have cursor : s.pool.ipCurrent = 0#32 := by
        by_contra moved
        exact (traceless.behind none last ⟨_, free, Ne.symm moved⟩).1 free
      rw [← cursor]
  · have zero_bound : ¬ Free s.pool s.bindings 0#32 := least 0#32 (by bv_omega)
    rw [noTrace_found room offer zero]
    by_cases own : a = s.pool.ipCurrent
    · have only : ∀ z, Free s.pool s.bindings z ↔ z = s.pool.ipCurrent := by
        intro z
        refine ⟨fun free => ?_, fun same => ?_⟩
        · have := upto z free
          bv_omega
        · rw [same, ← own]
          exact free
      constructor
      · rintro ⟨-, sends⟩
        refine ⟨past _, ?_, fun _ _ _ => sends⟩
        rintro - - ⟨z, free, other⟩
        exact (other ((only z).mp free)).elim
      · intro traceless
        refine ⟨fun _ => by rw [own], traceless.again only last (own ▸ zero)⟩
    · have moved : ¬ { s.pool with ipCurrent := a } = s.pool := fun same => own (congrArg IpPoolInd.ipCurrent same)
      constructor
      · rintro ⟨unmoved, sends⟩
        have malloc : turn.mallocOk = true := by simpa using mt unmoved moved
        refine ⟨past _, fun _ _ _ => ⟨zero_bound, malloc, sends malloc⟩, fun only => ?_⟩
        exact (own ((only a).mp free)).elim
      · intro traceless
        obtain ⟨-, malloc, send⟩ := traceless.behind none last ⟨a, free, own⟩
        exact ⟨by simp [malloc], fun _ => send⟩

/-- **When a DISCOVER without an OFFER leaves no trace**: the cursor has reached `ip_last`, or no call
fails once the loop has found an address. -/
theorem noTrace_iff {s : Server} {turn : Turn} :
    NoTrace s turn ↔ s.pool.ipLast ≤ s.pool.ipCurrent ∨ Traceless s turn := by
  by_cases spent : s.pool.ipLast ≤ s.pool.ipCurrent
  · exact iff_of_true (noTrace_full spent) (Or.inl spent)
  · rw [or_iff_right spent]
    have room := BitVec.not_le.mp spent
    have result := offerIpAvailable_offers s.pool s.bindings
    generalize offer : offerIpAvailable s.pool s.bindings = r at result
    cases result with
    | past hit => exact noTrace_past room offer hit
    | missed none last =>
      refine iff_of_true ((noTrace_missed room offer).mpr rfl) ⟨?_, ?_, ?_⟩
      · rintro ⟨a, hit⟩
        exact (none a hit).elim
      · exact fun _ greatest => (last greatest).elim
      · exact fun _ greatest => (last greatest).elim
    | around none wraps free least =>
      have last : s.pool.ipLast = 0xFFFFFFFF#32 := by bv_omega
      exact noTrace_around room offer none last free least
    | forever last full =>
      refine iff_of_true (noTrace_forever room offer) ⟨?_, ?_, ?_⟩
      · rintro ⟨a, hit⟩
        exact (full a hit.2).elim
      · rintro _ _ ⟨a, free, -⟩
        exact (full a free).elim
      · intro only
        exact (full _ ((only _).mpr rfl)).elim

/-- The very first DISCOVER, when `malloc` returns `NULL`: address .16 is gone. -/
theorem noTrace_malloc : (sendDHCPOffer (Server.fresh lanPool lanConfig)
      { (discover macA).turn with mallocOk := false } =
        .returned (Server.fresh { lanPool with ipCurrent := 0xC0A80110#32 } lanConfig) .outOfMemory) ∧
    ¬ NoTrace (Server.fresh lanPool lanConfig) { (discover macA).turn with mallocOk := false } := by
  have returned : sendDHCPOffer (Server.fresh lanPool lanConfig)
      { (discover macA).turn with mallocOk := false } =
        .returned (Server.fresh { lanPool with ipCurrent := 0xC0A80110#32 } lanConfig) .outOfMemory := rfl
  refine ⟨returned, fun traceless => ?_⟩
  have same := (traceless _ _ returned rfl).1
  exact absurd (congrArg IpPoolInd.ipCurrent same) (by decide)

end DhcpServer
