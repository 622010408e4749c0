import DhcpServer.Leases

/-!
# The cursor never turns back

Every OFFER is of an address past `ip_current`, and moves `ip_current` there. The first address
of a range is therefore never offered, and an address given back never again.
-/

namespace DhcpServer
set_option autoImplicit false
open Lib

/-- The address an OFFER carries. -/
def Action.offeredIp : Action → Option (BitVec 32)
  | .offered _ reply _ => some (ntohl reply.message.yiaddr)
  | _ => none

/-- The addresses offered, newest first. -/
def offers (h : History) : List (BitVec 32) := h.filterMap fun e => e.2.offeredIp

theorem offers_cons (turn : Turn) (action : Action) (h : History) :
    offers ((turn, action) :: h) = action.offeredIp.toList ++ offers h := by
  cases e : action.offeredIp <;> simp [offers, e]

section Cursor
variable {pool : IpPoolInd} {config : DhcpConfig} {h : History} {s t : Server} {turn : Turn} {action : Action}

/-- A turn moves the cursor forward, and an OFFER moves it to the offered address. -/
theorem served_cursor (alloc : Allocated pool s) (served : Served s turn t action) :
    s.pool.ipCurrent ≤ t.pool.ipCurrent ∧ ∀ a, action.offeredIp = some a → s.pool.ipCurrent < a := by
  cases served with
  | missed _ room offer =>
    rw [offer_eq_miss alloc.bounds room offer]
    exact ⟨BitVec.le_refl _, fun _ carried => by cases carried⟩
  | outOfMemory _ room offer nonzero =>
    obtain ⟨-, -, rfl⟩ := offer_eq_next alloc.bounds room offer nonzero
    exact ⟨BitVec.le_of_lt (ipCurrent_lt_nextAddress room), fun _ carried => by cases carried⟩
  | offered _ room offer nonzero =>
    obtain ⟨-, rfl, rfl⟩ := offer_eq_next alloc.bounds room offer nonzero
    constructor
    · exact BitVec.le_of_lt (ipCurrent_lt_nextAddress room)
    · intro a carried
      rw [Action.offeredIp, offerReply, offerMessage_yiaddr] at carried
      cases carried
      exact ipCurrent_lt_nextAddress room
  | _ => exact ⟨BitVec.le_refl _, fun _ carried => by cases carried⟩

/-- **Along every continuation the offers are past the cursor.** -/
theorem offers_past_cursor (alloc : Allocated pool s) (run : Run serve s h t) :
    Allocated pool t ∧ s.pool.ipCurrent ≤ t.pool.ipCurrent ∧ ∀ a ∈ offers h, s.pool.ipCurrent < a := by
  induction run with
  | start => exact ⟨alloc, BitVec.le_refl _, nofun⟩
  | snoc _ stepped ih =>
    obtain ⟨alloc', forward, past⟩ := ih
    have served := served_of_serve stepped
    obtain ⟨forward', past'⟩ := served_cursor alloc' served
    refine ⟨alloc'.served served, BitVec.le_trans forward forward', fun a member => ?_⟩
    rw [offers_cons, List.mem_append, Option.mem_toList] at member
    rcases member with carried | earlier
    · have beyond := past' a carried
      bv_omega
    · exact past a earlier

/-! ## The range -/

/-- A DISCOVER while the C library's calls succeed. -/
structure IsDiscover (turn : Turn) : Prop where
  called : dispatch turn.task = .offer
  mallocOk : turn.mallocOk = true
  sendOk : turn.sendOk = true

/-- DISCOVERs from pairwise different clients, newest first, as many as the range has addresses. -/
structure DiscoversForRange (first last : BitVec 32) (turns : List Turn) : Prop where
  each : ∀ turn ∈ turns, IsDiscover turn
  clients : (turns.map Turn.ident).Nodup
  number : turns.length = last.toNat - first.toNat + 1

/-- The turns are answered with OFFERs of exactly the addresses of the range, each once, and no
further DISCOVER is answered with an OFFER or changes the state. -/
def WholeRangeUsable (config : DhcpConfig) (first last : BitVec 32) (turns : List Turn) : Prop :=
  ∃ h s, Run serve (Server.fresh (.ofRange first last) config) h s ∧ h.map Prod.fst = turns ∧
    (offers h).length = turns.length ∧ (offers h).Nodup ∧ (∀ a, a ∈ offers h ↔ first ≤ a ∧ a ≤ last) ∧
    ∀ turn, IsDiscover turn → ∃ action, serve s turn = some (s, action) ∧ action.offeredIp = none

/-- The `k` addresses past `a`, last first. -/
def addressesPast (a : BitVec 32) : Nat → List (BitVec 32)
  | 0 => []
  | k + 1 => (a + BitVec.ofNat 32 (k + 1)) :: addressesPast a k

theorem serve_discover (bounds : CursorBounds s.pool s.bindings) (room : s.pool.ipCurrent < s.pool.ipLast)
    (range : s.pool.ipFirst ≤ s.pool.ipLast) (discover : IsDiscover turn) :
    serve s turn = some ({ s with
        pool := { s.pool with ipCurrent := s.pool.nextAddress }
        bindings := newBinding turn s.config s.pool.nextAddress :: s.bindings },
      .offered s.pool.nextAddress (offerReply s turn s.pool.nextAddress) true) := by
  have nonzero : s.pool.nextAddress ≠ 0#32 := by
    have past := ipCurrent_lt_nextAddress room
    intro zero
    rw [zero] at past
    bv_omega
  have offer := offerIpAvailable_next bounds room range
  simp only [serve, handleClient, discover.called, sendDHCPOffer_offered room offer nonzero discover.mallocOk,
    discover.sendOk]

theorem serve_exhausted (spent : s.pool.ipLast ≤ s.pool.ipCurrent) (discover : IsDiscover turn) :
    serve s turn = some (s, .exhausted) := by
  simp only [serve, handleClient, discover.called, sendDHCPOffer_full spent]

theorem toNat_add_ofNat {a : BitVec 32} {k : Nat} (room : a.toNat + k < 2 ^ 32) :
    (a + BitVec.ofNat 32 k).toNat = a.toNat + k := by
  rw [BitVec.toNat_add, BitVec.toNat_ofNat]
  omega

/-- As long as the range lasts, DISCOVERs are answered with the addresses past the first. -/
theorem run_discovers {first last : BitVec 32} {turns : List Turn} (each : ∀ turn ∈ turns, IsDiscover turn)
    (room : first.toNat + turns.length ≤ last.toNat) :
    ∃ h s, Run serve (Server.fresh (.ofRange first last) config) h s ∧ h.map Prod.fst = turns ∧
      offers h = addressesPast first turns.length ∧
      s.pool.ipCurrent = first + BitVec.ofNat 32 turns.length := by
  induction turns with
  | nil => exact ⟨[], _, .start, rfl, rfl, by simp [Server.fresh, IpPoolInd.ofRange]⟩
  | cons turn turns ih =>
    rw [List.length_cons] at room
    obtain ⟨discover, earlier⟩ := List.forall_mem_cons.mp each
    obtain ⟨h, s, run, inputs, offered, cursor⟩ := ih earlier (by omega)
    have alloc := Allocated.of_run run
    have first' : s.pool.ipFirst = first := alloc.first
    have last' : s.pool.ipLast = last := alloc.last
    have below := last.isLt
    have reached : s.pool.ipCurrent.toNat = first.toNat + turns.length := by
      rw [cursor, toNat_add_ofNat (by omega)]
    have next : s.pool.nextAddress = first + BitVec.ofNat 32 (turns.length + 1) := by
      apply BitVec.eq_of_toNat_eq
      rw [IpPoolInd.nextAddress, first', if_neg (by rw [BitVec.lt_def]; omega),
        toNat_add_one (by omega), reached, toNat_add_ofNat (by omega), Nat.add_assoc]
    have stepped := serve_discover alloc.bounds (by rw [last', BitVec.lt_def]; omega)
      (by rw [first', last', BitVec.le_def]; omega) discover
    refine ⟨_, _, run.snoc stepped, by rw [List.map_cons, inputs], ?_, next⟩
    rw [offers_cons, Action.offeredIp, offerReply, offerMessage_yiaddr, offered, next]
    rfl

/-- No OFFER is of the first address. -/
theorem first_not_offered {first last : BitVec 32} (range : first ≤ last) (turns : List Turn) :
    ¬ WholeRangeUsable config first last turns := by
  rintro ⟨h, s, run, -, -, -, whole, -⟩
  obtain ⟨-, -, past⟩ := offers_past_cursor (.fresh (.ofRange first last) config) run
  exact BitVec.lt_irrefl first (past first ((whole first).mpr ⟨BitVec.le_refl _, range⟩))

/-- All DISCOVERs but the last are offered the addresses past the first, and after them nothing is. -/
theorem range_offered {first last : BitVec 32} (range : first ≤ last) {turns : List Turn}
    (discovers : DiscoversForRange first last turns) :
    ∃ h s, Run serve (Server.fresh (.ofRange first last) config) h s ∧ h.map Prod.fst = turns ∧
      offers h = addressesPast first (last.toNat - first.toNat) ∧
      ∀ turn, IsDiscover turn → serve s turn = some (s, .exhausted) := by
  have span := BitVec.le_def.mp range
  obtain ⟨each, -, number⟩ := discovers
  obtain ⟨turn, turns, rfl⟩ := List.exists_cons_of_length_eq_add_one number
  rw [List.length_cons, Nat.add_right_cancel_iff] at number
  obtain ⟨discover, earlier⟩ := List.forall_mem_cons.mp each
  obtain ⟨h, s, run, inputs, offered, cursor⟩ := @run_discovers config first last turns earlier (by omega)
  have spent : s.pool.ipLast ≤ s.pool.ipCurrent := by
    have below := last.isLt
    have last' : s.pool.ipLast = last := (Allocated.of_run run).last
    rw [last', cursor, BitVec.le_def, toNat_add_ofNat (by omega)]
    omega
  refine ⟨_, s, run.snoc (serve_exhausted spent discover), by rw [List.map_cons, inputs], ?_,
    fun turn => serve_exhausted spent⟩
  rw [offers_cons, offered, number]
  rfl

/-- **No range is usable as a whole**: its first address is missing, and only that one. -/
theorem range_not_whole (first last : BitVec 32) (range : first ≤ last) (config : DhcpConfig)
    (turns : List Turn) (discovers : DiscoversForRange first last turns) :
    ¬ WholeRangeUsable config first last turns ∧
    ∃ h s, Run serve (Server.fresh (.ofRange first last) config) h s ∧ h.map Prod.fst = turns ∧
      offers h = addressesPast first (last.toNat - first.toNat) ∧
      ∀ turn, IsDiscover turn → serve s turn = some (s, .exhausted) := by
  constructor
  · exact first_not_offered range turns
  · exact range_offered range discovers

theorem isDiscover_discover (mac : List Byte) : IsDiscover (discover mac).turn where
  called := dispatch_ethernet mac 1#8 []
  mallocOk := rfl
  sendOk := rfl

/-- DISCOVERs of six clients. -/
def sixDiscovers : List Turn :=
  [6#8, 5#8, 4#8, 3#8, 2#8, 1#8].map fun k => (discover [0x08#8, 0x00#8, 0x27#8, 0x00#8, 0x00#8, k]).turn

/-- As many as `dhcp_config_file.txt` has addresses. -/
theorem sixDiscovers_forRange : DiscoversForRange lanPool.ipFirst lanPool.ipLast sixDiscovers := by
  refine ⟨?_, by decide, rfl⟩
  intro turn member
  obtain ⟨k, -, rfl⟩ := List.mem_map.mp member
  exact isDiscover_discover _

/-- Five of six addresses are offered, and none of one. -/
theorem range_not_whole_six : (¬ WholeRangeUsable lanConfig lanPool.ipFirst lanPool.ipLast sixDiscovers ∧
      ∃ h s, Run serve (Server.fresh (.ofRange lanPool.ipFirst lanPool.ipLast) lanConfig) h s ∧
        h.map Prod.fst = sixDiscovers ∧ offers h = addressesPast 0xC0A8010F#32 5 ∧
        ∀ turn, IsDiscover turn → serve s turn = some (s, .exhausted)) ∧
    ¬ WholeRangeUsable lanConfig 0xC0A8010F#32 0xC0A8010F#32 [(discover macA).turn] ∧
      ∃ h s, Run serve (Server.fresh (.ofRange 0xC0A8010F#32 0xC0A8010F#32) lanConfig) h s ∧
        h.map Prod.fst = [(discover macA).turn] ∧ offers h = [] ∧
        ∀ turn, IsDiscover turn → serve s turn = some (s, .exhausted) := by
  have one : DiscoversForRange 0xC0A8010F#32 0xC0A8010F#32 [(discover macA).turn] :=
    ⟨List.forall_mem_singleton.mpr (isDiscover_discover macA), List.nodup_singleton _, rfl⟩
  exact ⟨range_not_whole _ _ (by decide) lanConfig _ sixDiscovers_forRange,
    range_not_whole _ _ (by decide) lanConfig _ one⟩

/-- The six addresses of `dhcp_config_file.txt` and six clients. -/
theorem lan_range_not_whole : DiscoversForRange lanPool.ipFirst lanPool.ipLast sixDiscovers ∧
    ¬ WholeRangeUsable lanConfig lanPool.ipFirst lanPool.ipLast sixDiscovers :=
  ⟨sixDiscovers_forRange, first_not_offered (by decide) _⟩

/-! ## Released addresses -/

/-- Every turn of the history is a DISCOVER of a client that holds no binding. -/
def DiscoversOfStrangers (s : Server) (h : History) : Prop :=
  ∀ newer older turn action u, h = newer ++ (turn, action) :: older → Run serve s older u →
    dispatch turn.task = .offer ∧ ∀ b ∈ u.bindings, b.cident ≠ turn.ident

/-- DISCOVERs of clients without a binding lead to an OFFER of `a`. -/
def ReturnsToPool (s : Server) (a : BitVec 32) : Prop :=
  ∃ h t, Run serve s h t ∧ DiscoversOfStrangers s h ∧ a ∈ offers h

/-- Whether some turn released `a`. -/
def releases (a : BitVec 32) (h : History) : Bool :=
  h.any fun e => match e.2 with
    | .released ip => ip == a
    | _ => false

theorem released_of_releases {a : BitVec 32} (check : releases a h = true) :
    ∃ turn, (turn, Action.released a) ∈ h := by
  obtain ⟨⟨turn, action⟩, entry, release⟩ := List.any_eq_true.mp check
  cases action with
  | released ip => exact ⟨turn, eq_of_beq release ▸ entry⟩
  | _ => cases release

/-- The address a client gave up, by a decline or a release. -/
def Action.givenUp : Action → Option (BitVec 32)
  | .declined ip => some ip
  | .released ip => some ip
  | _ => none

/-- An address given up is not past the cursor. -/
theorem givenUp_le_cursor (run : Run serve (Server.fresh pool config) h s) {a : BitVec 32}
    (entry : (turn, action) ∈ h) (gave : action.givenUp = some a) : a ≤ s.pool.ipCurrent := by
  obtain ⟨newer, older, rfl⟩ := List.append_of_mem entry
  obtain ⟨u, t, before, stepped, after⟩ := run.step_at
  have alloc := Allocated.of_run before
  have served := served_of_serve stepped
  obtain ⟨-, forward, -⟩ := offers_past_cursor (alloc.served served) after
  cases served with
  | declined =>
    cases gave
    exact BitVec.le_trans (alloc.bounds _ (List.get_mem _ _)) forward
  | released =>
    cases gave
    exact BitVec.le_trans (alloc.bounds _ (List.get_mem _ _)) forward
  | _ => cases gave

/-- No continuation at all offers an address again that was given up. -/
theorem givenUp_not_offered (run : Run serve (Server.fresh pool config) h s) {a : BitVec 32}
    (entry : (turn, action) ∈ h) (gave : action.givenUp = some a) {h' : History}
    (after : Run serve s h' t) : a ∉ offers h' := by
  obtain ⟨-, -, past⟩ := offers_past_cursor (Allocated.of_run run) after
  exact fun member => absurd (past a member) (BitVec.not_lt.mpr (givenUp_le_cursor run entry gave))

/-- **A released address never returns to the pool.** -/
theorem released_not_returned (run : Run serve (Server.fresh pool config) h s) (a : BitVec 32)
    (released : (turn, .released a) ∈ h) : ¬ ReturnsToPool s a := by
  rintro ⟨h', t, after, -, member⟩
  exact givenUp_not_offered run released rfl after member

theorem released_not_returned_among_two : ∃ h s turn, Run serve (Server.fresh lanPool lanConfig) h s ∧
    h.map Prod.fst = [(discover macB).turn, (releaseOf macA 0xC0A80110#32).turn, (discover macA).turn] ∧
    (turn, .released 0xC0A80110#32) ∈ h ∧ ¬ ReturnsToPool s 0xC0A80110#32 := by
  obtain ⟨s, h, run, inputs, check⟩ := @Run.of_check _ _ _ serve (Server.fresh lanPool lanConfig)
    [(discover macA).turn, (releaseOf macA 0xC0A80110#32).turn, (discover macB).turn]
    (fun _ h => releases 0xC0A80110#32 h) (by decide)
  obtain ⟨turn, released⟩ := released_of_releases check
  exact ⟨h, s, turn, run, inputs, released, released_not_returned run _ released⟩

/-- A client is offered an address and releases it; no later message gets it offered again. -/
theorem released_lost : ∃ h s turn, Run serve (Server.fresh lanPool lanConfig) h s ∧
    h.map Prod.fst = [(releaseOf macA 0xC0A80110#32).turn, (discover macA).turn] ∧
    (turn, .released 0xC0A80110#32) ∈ h ∧ ¬ ReturnsToPool s 0xC0A80110#32 := by
  obtain ⟨s, h, run, inputs, check⟩ := @Run.of_check _ _ _ serve (Server.fresh lanPool lanConfig)
    [(discover macA).turn, (releaseOf macA 0xC0A80110#32).turn]
    (fun _ h => releases 0xC0A80110#32 h) (by decide)
  obtain ⟨turn, released⟩ := released_of_releases check
  refine ⟨h, s, turn, run, inputs, released, ?_⟩
  rintro ⟨h', t, after, -, member⟩
  exact givenUp_not_offered run released rfl after member

/-! ## Declined addresses -/

/-- Whether some turn took `a` off the list because its client declined it. -/
def declines (a : BitVec 32) (h : History) : Bool :=
  h.any fun e => match e.2 with
    | .declined ip => ip == a
    | _ => false

theorem declines_iff {a : BitVec 32} : declines a h = true ↔ ∃ turn, (turn, .declined a) ∈ h := by
  simp only [declines, List.any_eq_true]
  constructor
  · rintro ⟨⟨turn, action⟩, entry, named⟩
    cases action with
    | declined ip => exact ⟨turn, eq_of_beq named ▸ entry⟩
    | _ => cases named
  · rintro ⟨turn, entry⟩
    exact ⟨_, entry, beq_self_eq_true a⟩

/-- **A declined address is never handed out again.** -/
theorem declined_not_offered {newer older : History} {a : BitVec 32}
    (run : Run serve (Server.fresh pool config) (newer ++ (turn, .declined a) :: older) s) :
    a ∉ offers newer := by
  obtain ⟨t, before, after⟩ := run.split
  exact givenUp_not_offered before List.mem_cons_self rfl after

/-- The declined .16 is not offered to the next client, which gets .17. -/
theorem declined_not_offered_to_next : ∃ newer older turn s,
    Run serve (Server.fresh lanPool lanConfig) (newer ++ (turn, .declined 0xC0A80110#32) :: older) s ∧
      offers newer = [0xC0A80111#32] ∧ 0xC0A80110#32 ∉ offers newer := by
  obtain ⟨s, h, run, inputs, check⟩ := @Run.of_check _ _ _ serve (Server.fresh lanPool lanConfig)
    [(discover macA).turn, (declineOf macA 0xC0A80110#32).turn, (discover macB).turn]
    (fun _ h => declines 0xC0A80110#32 ((h.drop 1).take 1) && offers (h.take 1) == [0xC0A80111#32])
    (by decide)
  have three : h.length = 3 := by
    rw [← List.length_map Prod.fst, inputs]
    rfl
  obtain ⟨e, d, older, rfl⟩ := List.length_eq_three.mp three
  obtain ⟨declined, next⟩ := Bool.and_eq_true_iff.mp check
  obtain ⟨turn, entry⟩ := declines_iff.mp declined
  obtain rfl := List.mem_singleton.mp entry
  exact ⟨[e], [older], turn, s, run, eq_of_beq next, declined_not_offered run⟩

end Cursor

end DhcpServer
