import DhcpServer.Lib.Interleave
import DhcpServer.Cursor
import DhcpServer.OfferLoop

/-!
# Several workers on one pool (`startThread`, `pool_mutex`)

Only `offer_ip_available` holds `pool_mutex`. A call of `send_DHCP_Offer` is three steps: the test on
`ip_current`, the reservation, and the insertion of the binding; between them other workers run. A
worker whose allocation loop does not end never takes its reservation step.
-/

namespace DhcpServer
set_option autoImplicit false
open Lib

/-- Where a worker is in `send_DHCP_Offer`. -/
inductive Phase where
  | idle
  /-- Past the test on `ip_current`. -/
  | tested (turn : Turn)
  /-- Back from `offer_ip_available`. -/
  | reserved (turn : Turn) (offeredIp : BitVec 32)

/-- A worker's next step. An idle worker begins with the turn it is given; the output is the address
that `offer_ip_available` returned in this step. -/
def offerStep : LocalStep Server Phase Turn (Option (BitVec 32)) := fun s phase turn =>
  match phase with
  | .idle =>
    if s.pool.ipCurrent ≥ s.pool.ipLast then some (s, .idle, none) else some (s, .tested turn, none)
  | .tested turn =>
    match offerIpAvailable s.pool s.bindings with
    | none => none
    | some (offeredIp, pool) =>
      if offeredIp = 0#32 then
        some ({ s with pool := pool }, .idle, none)
      else
        some ({ s with pool := pool }, .reserved turn offeredIp, some offeredIp)
  | .reserved turn offeredIp =>
    if !turn.mallocOk then
      some (s, .idle, none)
    else
      some ({ s with bindings := newBinding turn s.config offeredIp :: s.bindings }, .idle, none)

/-- `THREAD_NUM` idle workers. -/
def startThreads (threadNum : Nat) (pool : IpPoolInd) (config : DhcpConfig) : Team Server Phase threadNum where
  shared := Server.fresh pool config
  workers := fun _ => .idle

/-- The addresses reserved, newest first. -/
def reservations (outputs : List (Option (BitVec 32))) : List (BitVec 32) := outputs.filterMap id

/-- Whatever the workers do, the reserved addresses are pairwise different addresses of the range. -/
def SafeReservations (threadNum : Nat) (first last : BitVec 32) : Prop :=
  ∀ config h team, Run (interleave offerStep) (startThreads threadNum (.ofRange first last) config) h team →
    (reservations (h.map Prod.snd)).Nodup ∧ ∀ a ∈ reservations (h.map Prod.snd), first ≤ a ∧ a ≤ last

theorem reservations_append (newer older : List (Option (BitVec 32))) :
    reservations (newer ++ older) = reservations newer ++ reservations older :=
  List.filterMap_append

/-! ## A worker that is not interrupted -/

section Alone
variable {s t : Server} {turn : Turn} {action : Action}

/-- The address of an OFFER. -/
def Action.reservedIp : Action → Option (BitVec 32)
  | .offered ip _ _ => some ip
  | _ => none

theorem offerStep_idle (room : s.pool.ipCurrent < s.pool.ipLast) :
    offerStep s .idle turn = some (s, .tested turn, none) :=
  if_neg (BitVec.not_le.mpr room)

theorem offerStep_tested {ip : BitVec 32} {pool : IpPoolInd}
    (offer : offerIpAvailable s.pool s.bindings = some (ip, pool)) (nonzero : ip ≠ 0#32) :
    offerStep s (.tested turn) turn = some ({ s with pool := pool }, .reserved turn ip, some ip) := by
  rw [offerStep, offer]
  exact if_neg nonzero

/-- The test and the reservation. -/
theorem run_reserve (room : s.pool.ipCurrent < s.pool.ipLast) {ip : BitVec 32} {pool : IpPoolInd}
    (offer : offerIpAvailable s.pool s.bindings = some (ip, pool)) (nonzero : ip ≠ 0#32) :
    Run (solo offerStep) (s, .idle) [(turn, some ip), (turn, none)] ({ s with pool := pool }, .reserved turn ip) :=
  .solo_snoc (.solo_snoc .start (offerStep_idle room)) (offerStep_tested offer nonzero)

/-- **Uninterrupted, the three steps are `send_DHCP_Offer`.** -/
theorem run_sendDHCPOffer (returned : sendDHCPOffer s turn = .returned t action) :
    ∃ h, Run (solo offerStep) (s, .idle) h (t, .idle) ∧
      ∀ ip, action.reservedIp = some ip → reservations (h.map Prod.snd) = [ip] := by
  cases discovered_of_returned returned with
  | full spent => exact ⟨[(turn, none)], .solo_snoc .start (if_pos spent), nofun⟩
  | @missed pool room offer =>
    have missed : offerStep s (.tested turn) turn = some ({ s with pool := pool }, .idle, none) := by
      rw [offerStep, offer]
      exact if_pos rfl
    exact ⟨_, .solo_snoc (.solo_snoc .start (offerStep_idle room)) missed, nofun⟩
  | @outOfMemory ip pool room offer nonzero failed =>
    have dropped : offerStep { s with pool := pool } (.reserved turn ip) turn =
        some ({ s with pool := pool }, .idle, none) := by
      rw [offerStep, failed]
      rfl
    exact ⟨_, (run_reserve room offer nonzero).solo_snoc dropped, nofun⟩
  | @offered ip pool room offer nonzero allocated =>
    have inserted : offerStep { s with pool := pool } (.reserved turn ip) turn =
        some ({ s with pool := pool, bindings := newBinding turn s.config ip :: s.bindings }, .idle, none) := by
      rw [offerStep, allocated]
      rfl
    refine ⟨_, (run_reserve room offer nonzero).solo_snoc inserted, ?_⟩
    intro ip' same
    cases same
    rfl

end Alone

/-! ## Safety -/

/-- The reservations so far, in a range `first` to `last`: none is past the cursor. -/
structure Reserved (first last : BitVec 32) (outputs : List (Option (BitVec 32))) (s : Server) : Prop where
  ipFirst : s.pool.ipFirst = first
  ipLast : s.pool.ipLast = last
  low : first ≤ s.pool.ipCurrent
  bounds : CursorBounds s.pool s.bindings
  reserved : ∀ a ∈ reservations outputs, first ≤ a ∧ a ≤ last ∧ a ≤ s.pool.ipCurrent
  distinct : (reservations outputs).Nodup

/-- What a worker knows of the cursor. A test that was passed may be stale, but with the greatest word
for `ip_last` the loop needs it. -/
def Knows (s : Server) : Phase → Prop
  | .idle => True
  | .tested _ => s.pool.ipCurrent ≤ s.pool.ipLast ∧
      (s.pool.ipLast = 0xFFFFFFFF#32 → s.pool.ipCurrent < s.pool.ipLast)
  | .reserved _ ip => ip ≤ s.pool.ipCurrent

/-- A worker's steps, when it knows that. -/
inductive Progress (s : Server) : Phase → Server → Phase → Option (BitVec 32) → Prop where
  | refused : Progress s .idle s .idle none
  | passed {turn : Turn} (room : s.pool.ipCurrent < s.pool.ipLast) : Progress s .idle s (.tested turn) none
  | missed {turn : Turn} : Progress s (.tested turn) s .idle none
  | took {turn : Turn} {a : BitVec 32} (past : s.pool.ipCurrent < a) (low : s.pool.ipFirst ≤ a)
      (high : a ≤ s.pool.ipLast) :
      Progress s (.tested turn) { s with pool := { s.pool with ipCurrent := a } } (.reserved turn a) (some a)
  | dropped {turn : Turn} {ip : BitVec 32} : Progress s (.reserved turn ip) s .idle none
  | inserted {turn : Turn} {ip : BitVec 32} : Progress s (.reserved turn ip)
      { s with bindings := newBinding turn s.config ip :: s.bindings } .idle none

section Safety
variable {first last : BitVec 32} {outputs : List (Option (BitVec 32))} {s t : Server} {phase phase' : Phase}
  {turn : Turn} {output : Option (BitVec 32)}

/-- A step without a reservation. -/
theorem Reserved.silent (inv : Reserved first last outputs s) : Reserved first last (none :: outputs) s :=
  ⟨inv.ipFirst, inv.ipLast, inv.low, inv.bounds, inv.reserved, inv.distinct⟩

/-- With room up to the greatest word, an address past the cursor is free, so the counter does not wrap. -/
theorem Reserved.unwrapped (inv : Reserved first last outputs s) (knows : Knows s (.tested turn))
    (spent : ∀ z, ¬ FreePast s.pool s.bindings z) :
    s.pool.ipLast ≠ 0xFFFFFFFF#32 ∧ s.pool.ipCurrent ≠ 0xFFFFFFFF#32 := by
  have short : s.pool.ipLast ≠ 0xFFFFFFFF#32 := by
    intro greatest
    have room := knows.2 greatest
    have low : s.pool.ipFirst ≤ s.pool.ipCurrent := by
      rw [inv.ipFirst]
      exact inv.low
    have past := ipCurrent_lt_nextAddress room
    refine spent _ ⟨past, isIpAvailable_iff.mp ((isIpAvailable_past inv.bounds past).mpr ⟨nextAddress_ge room, ?_⟩)⟩
    exact nextAddress_le room (BitVec.le_trans low (BitVec.le_of_lt room))
  refine ⟨short, fun top => ?_⟩
  have := knows.1
  bv_omega

theorem progress_of_step (inv : Reserved first last outputs s) (knows : Knows s phase)
    (stepped : offerStep s phase turn = some (t, phase', output)) : Progress s phase t phase' output := by
  cases phase with
  | idle =>
    unfold offerStep at stepped
    simp only at stepped
    split at stepped
    · cases stepped
      exact .refused
    · rename_i room
      cases stepped
      exact .passed (BitVec.not_le.mp room)
  | tested turn' =>
    have result := offerIpAvailable_offers s.pool s.bindings
    unfold offerStep at stepped
    simp only at stepped
    generalize offerIpAvailable s.pool s.bindings = r at result stepped
    cases result with
    | @past a free =>
      have nonzero : a ≠ 0#32 := by
        have := free.1
        bv_omega
      simp only [if_neg nonzero] at stepped
      cases stepped
      exact .took free.1 free.2.1 free.2.2.1
    | missed =>
      cases stepped
      exact .missed
    | around spent wraps =>
      obtain ⟨short, low⟩ := inv.unwrapped knows spent
      exact (wraps.elim short low).elim
    | forever => cases stepped
  | reserved turn' ip =>
    unfold offerStep at stepped
    simp only at stepped
    split at stepped
    · cases stepped
      exact .dropped
    · cases stepped
      exact .inserted

/-- A worker's own step. -/
theorem Reserved.own (inv : Reserved first last outputs s) (knows : Knows s phase)
    (progress : Progress s phase t phase' output) : Reserved first last (output :: outputs) t ∧ Knows t phase' := by
  cases progress with
  | refused => exact ⟨inv.silent, trivial⟩
  | passed room => exact ⟨inv.silent, BitVec.le_of_lt room, fun _ => room⟩
  | missed => exact ⟨inv.silent, trivial⟩
  | @took _ a past low high =>
    have forward := BitVec.le_of_lt past
    have fresh : a ∉ reservations outputs := fun member =>
      absurd past (BitVec.not_lt.mpr (inv.reserved a member).2.2)
    refine ⟨⟨inv.ipFirst, inv.ipLast, BitVec.le_trans inv.low forward, ?_, ?_, List.nodup_cons.mpr ⟨fresh, inv.distinct⟩⟩,
      BitVec.le_refl _⟩
    · exact fun b member => BitVec.le_trans (inv.bounds b member) forward
    · refine List.forall_mem_cons.mpr ⟨⟨inv.ipFirst ▸ low, inv.ipLast ▸ high, BitVec.le_refl _⟩, fun b member => ?_⟩
      obtain ⟨above, below, upto⟩ := inv.reserved b member
      exact ⟨above, below, BitVec.le_trans upto forward⟩
  | dropped => exact ⟨inv.silent, trivial⟩
  | inserted => exact ⟨{ inv.silent with bounds := List.forall_mem_cons.mpr ⟨knows, inv.bounds⟩ }, trivial⟩

/-- The others' knowledge, when a stale test does no harm or nobody can pass it. -/
theorem Reserved.others (inv : Reserved first last outputs s) {other : Phase}
    (harmless : last ≠ 0xFFFFFFFF#32 ∨ first = 0xFFFFFFFF#32) (knows : Knows s other)
    (progress : Progress s phase t phase' output) : Knows t other := by
  cases progress with
  | @took _ a past low high =>
    cases other with
    | idle => trivial
    | tested =>
      refine ⟨high, fun greatest => ?_⟩
      have top := harmless.resolve_left fun short => short (inv.ipLast ▸ greatest)
      have reached := inv.low
      rw [top] at reached
      bv_omega
    | reserved => exact BitVec.le_trans knows (BitVec.le_of_lt past)
  | inserted => cases other <;> exact knows
  | _ => exact knows

end Safety

theorem safe_of_harmless {threadNum : Nat} {first last : BitVec 32}
    (harmless : threadNum ≤ 1 ∨ last ≠ 0xFFFFFFFF#32 ∨ first = 0xFFFFFFFF#32) :
    SafeReservations threadNum first last := by
  intro config h team run
  have inv : Reserved first last (h.map Prod.snd) team.shared ∧ ∀ w, Knows team.shared (team.workers w) := by
    refine run.interleaved (Reserved first last) Knows ?_ ?_ ?_
    · exact ⟨⟨rfl, rfl, BitVec.le_refl _, nofun, nofun, List.nodup_nil⟩, fun _ => trivial⟩
    · intro outputs s phase turn t phase' output inv knows stepped
      exact inv.own knows (progress_of_step inv knows stepped)
    · intro outputs s phase other turn t phase' output several inv knows knows' stepped
      exact inv.others (harmless.resolve_left (by omega)) knows' (progress_of_step inv knows stepped)
  exact ⟨inv.1.distinct, fun a member => ⟨(inv.1.reserved a member).1, (inv.1.reserved a member).2.1⟩⟩

/-! ## A second worker at the end of the pool -/

section Overtaken
variable {s t : Server} {first : BitVec 32}

/-- A pool up to the greatest word, with its cursor at `cursor`. -/
def poolAt (first cursor : BitVec 32) : IpPoolInd := { IpPoolInd.ofRange first 0xFFFFFFFF#32 with ipCurrent := cursor }

@[simp] theorem poolAt_ipFirst (cursor : BitVec 32) : (poolAt first cursor).ipFirst = first := rfl
@[simp] theorem poolAt_ipLast (cursor : BitVec 32) : (poolAt first cursor).ipLast = 0xFFFFFFFF#32 := rfl
@[simp] theorem poolAt_ipCurrent (cursor : BitVec 32) : (poolAt first cursor).ipCurrent = cursor := rfl

/-- The bound addresses are those past the first, up to `a`. -/
def BoundUpTo (first a : BitVec 32) (s : Server) : Prop :=
  ∀ x, (∃ b ∈ s.bindings, b.address = x) ↔ first < x ∧ x ≤ a

/-- A DISCOVER's turn. -/
def someTurn : Turn := (discover macA).turn

theorem BoundUpTo.bounds {a : BitVec 32} (bound : BoundUpTo first a s) (cursor : s.pool.ipCurrent = a) :
    CursorBounds s.pool s.bindings :=
  fun b member => cursor ▸ ((bound b.address).mp ⟨b, member, rfl⟩).2

/-- One OFFER. -/
theorem run_next {a : BitVec 32} (pool : s.pool = poolAt first a)
    (above : first ≤ a) (below : a < 0xFFFFFFFF#32) (bound : BoundUpTo first a s) :
    ∃ h t, Run (solo offerStep) (s, .idle) h (t, .idle) ∧
      t.pool = poolAt first (a + 1) ∧ BoundUpTo first (a + 1) t := by
  have cursor : s.pool.ipCurrent = a := by simp [pool]
  have ipFirst : s.pool.ipFirst = first := by simp [pool]
  have ipLast : s.pool.ipLast = 0xFFFFFFFF#32 := by simp [pool]
  have next : s.pool.nextAddress = a + 1 := by
    rw [IpPoolInd.nextAddress, cursor, ipFirst, if_neg (BitVec.not_lt.mpr above)]
  have served := serve_discover (bound.bounds cursor) (cursor ▸ ipLast ▸ below)
    (by rw [ipFirst, ipLast]; bv_omega) (isDiscover_discover macA)
  have returned := returned_of_serve served
  rw [handleClient, (isDiscover_discover macA).called] at returned
  obtain ⟨h, run, -⟩ := run_sendDHCPOffer returned
  refine ⟨h, _, run, ?_, fun x => ?_⟩
  · rw [next, pool]
    rfl
  · show (∃ b ∈ newBinding _ s.config s.pool.nextAddress :: s.bindings, b.address = x) ↔ _
    rw [List.exists_mem_cons_iff, bound x, next]
    show a + 1 = x ∨ _ ↔ _
    bv_omega

/-- A worker takes the pool to any cursor short of the last. -/
theorem run_fill (config : DhcpConfig) {a : BitVec 32} (above : first ≤ a) (below : a < 0xFFFFFFFF#32) :
    ∃ h s, Run (solo offerStep) (Server.fresh (.ofRange first 0xFFFFFFFF#32) config, .idle) h (s, .idle) ∧
      s.pool = poolAt first a ∧ BoundUpTo first a s := by
  induction gap : a.toNat - first.toNat generalizing a with
  | zero =>
    have same : a = first := by bv_omega
    subst same
    refine ⟨[], _, .start, rfl, fun x => ?_⟩
    constructor
    · rintro ⟨b, member, -⟩
      cases member
    · rintro ⟨beyond, upto⟩
      bv_omega
  | succ k ih =>
    obtain ⟨h, s, run, pool, bound⟩ := @ih (a - 1) (by bv_omega) (by bv_omega) (by bv_omega)
    obtain ⟨h', t, run', pool', bound'⟩ := run_next pool (by bv_omega) (by bv_omega) bound
    rw [BitVec.sub_add_cancel] at pool' bound'
    exact ⟨_, t, run.trans run', pool', bound'⟩

/-- Up to the greatest word, free is not bound. -/
theorem free_greatest (ipFirst : s.pool.ipFirst = first) (ipLast : s.pool.ipLast = 0xFFFFFFFF#32) {x : BitVec 32} :
    Free s.pool s.bindings x ↔ first ≤ x ∧ ¬ ∃ b ∈ s.bindings, b.address = x := by
  have within : x ≤ 0xFFFFFFFF#32 := by bv_omega
  rw [Free, ipFirst, ipLast, and_iff_right within]
  simp only [not_exists, not_and, ne_eq]

/-- With one address left past the cursor, a worker reserves it. -/
theorem run_reserve_greatest (ipLast : s.pool.ipLast = 0xFFFFFFFF#32) (room : s.pool.ipCurrent < 0xFFFFFFFF#32)
    (left : ∀ x, FreePast s.pool s.bindings x ↔ x = 0xFFFFFFFF#32) :
    ∃ h, Run (solo offerStep) (s, .idle) h
        ({ s with pool := { s.pool with ipCurrent := 0xFFFFFFFF#32 } }, .reserved someTurn 0xFFFFFFFF#32) ∧
      reservations (h.map Prod.snd) = [0xFFFFFFFF#32] := by
  have free : FreePast s.pool s.bindings 0xFFFFFFFF#32 := (left _).mpr rfl
  have offer : offerIpAvailable s.pool s.bindings =
      some (0xFFFFFFFF#32, { s.pool with ipCurrent := 0xFFFFFFFF#32 }) := by
    apply (offersLeast_of_past free).least _ free
    intro z below hit
    rw [(left z).mp hit] at below
    exact BitVec.lt_irrefl _ below
  exact ⟨_, run_reserve (ipLast ▸ room) offer (by decide), rfl⟩

/-- A stale test: the last address is reserved but not yet bound, and the counter wraps around to the
first address. -/
theorem run_wrap (pool : s.pool = poolAt first 0xFFFFFFFF#32) (bound : BoundUpTo first 0xFFFFFFFE#32 s) :
    ∃ h t, Run (solo offerStep) (s, .tested someTurn) h (t, .idle) ∧
      t.pool = poolAt first first ∧
      ∀ x, first < x → ((∃ b ∈ t.bindings, b.address = x) ↔ x ≤ 0xFFFFFFFE#32) := by
  have free : ∀ x, Free s.pool s.bindings x ↔ first ≤ x ∧ ¬ (first < x ∧ x ≤ 0xFFFFFFFE#32) := by
    intro x
    rw [free_greatest (show s.pool.ipFirst = first by simp [pool]) (by simp [pool]), bound x]
  have offer : offerIpAvailable s.pool s.bindings = some (first, { s.pool with ipCurrent := first }) := by
    have result := offerIpAvailable_offers s.pool s.bindings
    generalize offerIpAvailable s.pool s.bindings = r at result
    have firstFree : Free s.pool s.bindings first := (free first).mpr (by bv_omega)
    cases result with
    | past hit =>
      have above := hit.1
      rw [pool, poolAt_ipCurrent] at above
      bv_omega
    | missed _ short => exact (short (by simp [pool])).elim
    | @around a _ _ hit least =>
      have same : a = first := by
        have low := ((free a).mp hit).1
        have high := BitVec.not_lt.mp fun less => least first less firstFree
        exact BitVec.le_antisymm high low
      rw [same]
    | forever _ full => exact (full first firstFree).elim
  have rewound : { s.pool with ipCurrent := first } = poolAt first first := by
    rw [pool]
    rfl
  rw [rewound] at offer
  by_cases zero : first = 0#32
  · -- address zero stands for no offer, but the cursor is there
    have missed : offerStep s (.tested someTurn) someTurn =
        some ({ s with pool := poolAt first first }, .idle, none) := by
      rw [offerStep, offer]
      exact if_pos zero
    refine ⟨_, _, .solo_snoc .start missed, rfl, fun x above => ?_⟩
    rw [bound x]
    exact and_iff_right above
  · have reserve := @offerStep_tested s someTurn _ _ offer zero
    have inserted : offerStep { s with pool := poolAt first first } (.reserved someTurn first)
        someTurn = some ({ s with
          pool := poolAt first first
          bindings := newBinding someTurn s.config first :: s.bindings }, .idle, none) := rfl
    refine ⟨_, _, .solo_snoc (.solo_snoc .start reserve) inserted, rfl, fun x above => ?_⟩
    rw [List.exists_mem_cons_iff, bound x]
    show first = x ∨ _ ↔ _
    bv_omega

end Overtaken

/-- **Two workers can reserve the greatest word twice**: one passes the test, the other reserves the last
address and does not get to insert its binding, and the first wraps around and comes to it again. -/
theorem greatest_reserved_twice {threadNum : Nat} (several : 1 < threadNum) {first : BitVec 32}
    (below : first < 0xFFFFFFFF#32) (config : DhcpConfig) :
    ∃ h team, Run (interleave offerStep) (startThreads threadNum (.ofRange first 0xFFFFFFFF#32) config) h team ∧
      ¬ (reservations (h.map Prod.snd)).Nodup := by
  let slow : Fin threadNum := ⟨1, several⟩
  let fast : Fin threadNum := ⟨0, by omega⟩
  have apart : fast ≠ slow := by simp [fast, slow]
  let idle : Fin threadNum → Phase := fun _ => .idle
  obtain ⟨h₀, s, fill, pool, bound⟩ := @run_fill first config 0xFFFFFFFE#32 (by bv_omega) (by decide)
  have ipLast : s.pool.ipLast = 0xFFFFFFFF#32 := by simp [pool]
  have cursor : s.pool.ipCurrent = 0xFFFFFFFE#32 := by simp [pool]
  -- the fast worker passes the test
  have test : Run (solo offerStep) (s, .idle) [(someTurn, none)] (s, .tested someTurn) :=
    .solo_snoc .start (offerStep_idle (by rw [ipLast, cursor]; decide))
  -- the slow one reserves the last address
  have left : ∀ x, FreePast s.pool s.bindings x ↔ x = 0xFFFFFFFF#32 := by
    intro x
    rw [FreePast, free_greatest (show s.pool.ipFirst = first by simp [pool]) ipLast, bound x, cursor]
    bv_omega
  obtain ⟨h₁, overtake, once⟩ := run_reserve_greatest ipLast (by rw [cursor]; decide) left
  -- the fast one wraps around, and comes to it again
  obtain ⟨h₂, u, wrap, rewound, bound'⟩ := @run_wrap { s with pool := { s.pool with ipCurrent := 0xFFFFFFFF#32 } } first
    (by rw [pool]; rfl) bound
  have left' : ∀ x, FreePast u.pool u.bindings x ↔ x = 0xFFFFFFFF#32 := by
    intro x
    rw [FreePast, free_greatest (show u.pool.ipFirst = first by simp [rewound]) (by simp [rewound]), rewound, poolAt_ipCurrent]
    constructor
    · rintro ⟨above, -, unbound⟩
      have := mt (bound' x above).mpr unbound
      bv_omega
    · rintro rfl
      refine ⟨below, BitVec.le_of_lt below, fun bound => ?_⟩
      exact absurd ((bound' _ below).mp bound) (by decide)
  obtain ⟨h₃, again, twice⟩ := run_reserve_greatest (s := u) (by simp [rewound]) (by simpa [rewound] using below) left'
  have run₀ := Run.of_solo idle fast (fill.trans test)
  have run₁ := Run.of_solo (Function.update idle fast (.tested someTurn)) slow overtake
  have run₂ := Run.of_solo (Function.update idle slow (.reserved someTurn 0xFFFFFFFF#32)) fast (wrap.trans again)
  have start : Function.update idle fast .idle = idle := Function.update_eq_self fast idle
  have stays : Function.update (Function.update idle fast (.tested someTurn)) slow .idle =
      Function.update idle fast (.tested someTurn) := by
    rw [Function.update_eq_self_iff, Function.update_of_ne apart.symm]
  rw [start] at run₀
  rw [stays] at run₁
  rw [Function.update_comm apart.symm] at run₂
  refine ⟨_, _, (run₀.trans run₁).trans run₂, fun distinct => ?_⟩
  simp only [List.map_append, outputs_of_solo, reservations_append, once, twice] at distinct
  obtain ⟨-, -, disjoint⟩ := List.nodup_append.mp distinct
  exact disjoint _ (List.mem_append_left _ (List.mem_singleton_self _)) _
    (List.mem_append_left _ (List.mem_singleton_self _)) rfl

/-- **When reservation is safe with several workers**: with one worker at most; with any number when the
range ends short of the greatest word; and when the range is the greatest word alone, where the test
is never passed. -/
theorem safeReservations_iff (threadNum : Nat) (first last : BitVec 32) :
    SafeReservations threadNum first last ↔ threadNum ≤ 1 ∨ last ≠ 0xFFFFFFFF#32 ∨ first = 0xFFFFFFFF#32 := by
  constructor
  · intro safe
    by_contra harmful
    simp only [not_or, Nat.not_le, not_not] at harmful
    obtain ⟨several, rfl, short⟩ := harmful
    obtain ⟨h, team, run, twice⟩ := @greatest_reserved_twice threadNum several first (by bv_omega) lanConfig
    exact twice (safe lanConfig h team run).1
  · exact safe_of_harmless

/-- Two workers and a range of two addresses. -/
theorem two_workers_not_safe : 0xFFFFFFFE#32 ≤ 0xFFFFFFFF#32 ∧ ¬ SafeReservations 2 0xFFFFFFFE#32 0xFFFFFFFF#32 := by
  obtain ⟨h, team, run, twice⟩ := greatest_reserved_twice (show 1 < 2 by decide)
    (show 0xFFFFFFFE#32 < 0xFFFFFFFF#32 by decide) lanConfig
  exact ⟨by decide, fun safe => twice (safe lanConfig h team run).1⟩

end DhcpServer
