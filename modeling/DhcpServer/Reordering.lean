import DhcpServer.Lib.Commute
import DhcpServer.Cursor
import DhcpServer.Isolation

/-!
# Datagrams that overtake one another

On the network datagrams may overtake one another. Where two of them are of different clients it does not
matter which one the server handles first, unless both ask for an address, or the one's ACK changes the DNS
server that the other one's INFORM reads.
-/

namespace DhcpServer
set_option autoImplicit false
open Lib

/-- The client whose bindings a turn looks at or changes. -/
def Turn.client (turn : Turn) : Option ClientIdent :=
  match dispatch turn.task with
  | .ignore => none
  | .offer => some turn.ident
  | .ack => some turn.ackKey
  | .decline => some turn.ident
  | .release => some turn.ident
  | .inform => none
  | .nack => none

/-- Turns whose order does not matter. -/
structure IndependentTurns (a b : Turn) : Prop where
  /-- They are of different clients, or both only look up a binding. -/
  clients : (dispatch a.task = .ack ∧ dispatch b.task = .ack) ∨ ∀ c, a.client = some c → b.client ≠ some c
  /-- The cursor is not moved by both. -/
  cursor : ¬ (dispatch a.task = .offer ∧ dispatch b.task = .offer)
  /-- The DNS server is not written by one and read by the other. -/
  dns : ¬ (dispatch a.task = .ack ∧ dispatch b.task = .inform) ∧ ¬ (dispatch a.task = .inform ∧ dispatch b.task = .ack)

/-- The four kinds of turns. -/
inductive TurnKind (turn : Turn) : Prop where
  | reads (client : turn.client = none)
  | offer (called : dispatch turn.task = .offer) (client : turn.client = some turn.ident)
  | ack (called : dispatch turn.task = .ack) (client : turn.client = some turn.ackKey)
  | edit (called : dispatch turn.task = .decline ∨ dispatch turn.task = .release)
      (client : turn.client = some turn.ident)

theorem turnKind (turn : Turn) : TurnKind turn := by
  cases called : dispatch turn.task with
  | ignore => exact .reads (by rw [Turn.client, called])
  | offer => exact .offer called (by rw [Turn.client, called])
  | ack => exact .ack called (by rw [Turn.client, called])
  | decline => exact .edit (Or.inl called) (by rw [Turn.client, called])
  | release => exact .edit (Or.inr called) (by rw [Turn.client, called])
  | inform => exact .reads (by rw [Turn.client, called])
  | nack => exact .reads (by rw [Turn.client, called])

theorem IndependentTurns.symm {a b : Turn} (independent : IndependentTurns a b) : IndependentTurns b a where
  clients := independent.clients.imp And.symm fun differ c held held' => differ c held' held
  cursor := fun both => independent.cursor both.symm
  dns := ⟨fun both => independent.dns.2 both.symm, fun both => independent.dns.1 both.symm⟩

/-! ## What a turn depends on -/

/-- What the look-up's result and the configuration make of a REQUEST. -/
def ackOutcome (turn : Turn) (found : Option IpBinding) (config : DhcpConfig) : Option (DhcpConfig × Action) :=
  match found with
  | none => some (config, .noBinding)
  | some b =>
    if turn.sendOk then
      some (ackConfig config, .acked ⟨ackMessage turn.request b.address (ackConfig config), broadcastAddr⟩)
    else
      none

/-- What the indexes and the configuration make of a DISCOVER: the indexes, the bindings made, the action. -/
def offerOutcome (turn : Turn) (pool : IpPoolInd) (config : DhcpConfig) : IpPoolInd × BindingList × Action :=
  if pool.ipLast ≤ pool.ipCurrent ∨ pool.ipLast < pool.ipFirst then
    (pool, [], .exhausted)
  else if turn.mallocOk then
    ({ pool with ipCurrent := pool.nextAddress }, [newBinding turn config pool.nextAddress],
      .offered pool.nextAddress ⟨offerMessage turn.request pool.nextAddress config, broadcastAddr⟩ turn.sendOk)
  else
    ({ pool with ipCurrent := pool.nextAddress }, [], .outOfMemory)

/-- A decline or a release: an edit of the client's first lease. -/
structure Edits (turn : Turn) (wanted : IpBinding → Bool) (edit : IpBinding → BindingList)
    (answer : Option IpBinding → Action) : Prop where
  owned : ∀ b, wanted b = true → b.cident = turn.ident
  made : ∀ b, wanted b = true → ∀ c ∈ edit b, c.cident = turn.ident
  serve_eq : ∀ s, serve s turn = some ({ s with bindings := updateFirst wanted edit s.bindings },
    answer (s.bindings.find? wanted))

section Forms
variable {s : Server} {turn : Turn}

/-- A search, and what is done at the binding it finds. -/
theorem searchBinding_find (list : BindingList) (ident : ClientIdent) (wanted : Assignment) (status : BindingStatus) :
    (searchBinding list ident wanted status = none ∧ list.find? (IpBinding.matches ident wanted status) = none ∧
      ∀ g, updateFirst (IpBinding.matches ident wanted status) g list = list) ∨
    ∃ b, searchBinding list ident wanted status = some b ∧
      list.find? (IpBinding.matches ident wanted status) = some (list.get b) ∧
      (∀ g, g (list.get b) = [] →
        updateFirst (IpBinding.matches ident wanted status) g list = removeBinding list b) ∧
      (∀ f g, g (list.get b) = [f (list.get b)] →
        updateFirst (IpBinding.matches ident wanted status) g list = updateBinding list b f) ∧
      ∀ g, g (list.get b) = [list.get b] → updateFirst (IpBinding.matches ident wanted status) g list = list := by
  cases search : searchBinding list ident wanted status with
  | none =>
    have unmatched := findFin_none.mp search
    exact Or.inl ⟨rfl, List.find?_eq_none.mpr fun x member => by simp [unmatched x member],
      fun g => updateFirst_none unmatched⟩
  | some b =>
    obtain ⟨front, back, split, holds, before, removed, updated⟩ := searchBinding_split search
    have edited : ∀ g, updateFirst (IpBinding.matches ident wanted status) g list =
        front ++ (g (list.get b) ++ back) := by
      intro g
      conv_lhs => rw [split]
      exact updateFirst_split holds before
    refine Or.inr ⟨b, rfl, ?_, fun g gone => ?_, fun f g changed => ?_, fun g kept => ?_⟩
    · conv_lhs => rw [split]
      rw [List.find?_append, List.find?_eq_none.mpr fun x member => by simp [before x member], Option.none_or,
        List.find?_cons, holds]
    · rw [edited, gone, removed]
      rfl
    · rw [edited, changed, updated]
      rfl
    · rw [edited, kept]
      exact split.symm

theorem serve_ackOutcome (called : dispatch turn.task = .ack) (s : Server) :
    serve s turn = (ackOutcome turn (s.bindings.find? (IpBinding.matches turn.ackKey .staticOrDynamic .associated))
      s.config).map fun r => ({ s with config := r.1 }, r.2) := by
  rw [serve, handleClient, called]
  dsimp only
  rw [sendDHCPAck]
  rcases searchBinding_find s.bindings turn.ackKey .staticOrDynamic .associated with
    ⟨search, found, -⟩ | ⟨b, search, found, -⟩
  · rw [search, found]
    rfl
  · rw [search, found, ackOutcome]
    cases turn.sendOk <;> rfl

theorem serve_offerOutcome (bounds : CursorBounds s.pool s.bindings) (called : dispatch turn.task = .offer) :
    serve s turn = some (
      { s with
        pool := (offerOutcome turn s.pool s.config).1
        bindings := (offerOutcome turn s.pool s.config).2.1 ++ s.bindings },
      (offerOutcome turn s.pool s.config).2.2) := by
  rw [serve, handleClient, called, offerOutcome]
  dsimp only
  by_cases spent : s.pool.ipLast ≤ s.pool.ipCurrent
  · rw [sendDHCPOffer_full spent, if_pos (Or.inl spent)]
    rfl
  · have room := BitVec.not_le.mp spent
    rcases offerIpAvailable_cases bounds room with ⟨empty, offer⟩ | ⟨range, offer⟩
    · rw [sendDHCPOffer_missed room offer, if_pos (Or.inr empty)]
      rfl
    · have nonzero : s.pool.nextAddress ≠ 0#32 := by
        have past := ipCurrent_lt_nextAddress room
        bv_omega
      rw [if_neg (not_or.mpr ⟨spent, BitVec.not_lt.mpr range⟩)]
      cases malloc : turn.mallocOk with
      | false =>
        rw [sendDHCPOffer_outOfMemory room offer nonzero malloc]
        rfl
      | true =>
        rw [sendDHCPOffer_offered room offer nonzero malloc]
        rfl

/-- What a turn without a client reads is the configuration at most, and only an INFORM reads it. -/
theorem serve_reads (called : turn.client = none) : ∃ r : DhcpConfig → Option Action,
    (dispatch turn.task ≠ .inform → ∀ c c', r c = r c') ∧ ∀ s, serve s turn = (r s.config).map fun a => (s, a) := by
  unfold Turn.client at called
  cases handler : dispatch turn.task with
  | ignore =>
    refine ⟨fun _ => some .ignored, fun _ _ _ => rfl, fun s => ?_⟩
    rw [serve, handleClient, handler]
    rfl
  | inform =>
    refine ⟨fun config => if turn.sendOk then some (.informed ⟨informReply turn.request config, turn.task.clientAddr⟩)
      else none, fun other => (other rfl).elim, fun s => ?_⟩
    rw [serve, handleClient, handler]
    dsimp only
    rw [handleDHCPInformReply]
    cases turn.sendOk <;> rfl
  | nack =>
    refine ⟨fun _ => if turn.sendOk then some (.nacked ⟨nackMessage turn.request, turn.task.clientAddr⟩) else none,
      fun _ _ _ => rfl, fun s => ?_⟩
    rw [serve, handleClient, handler]
    dsimp only
    rw [sendDHCPNACK]
    cases turn.sendOk <;> rfl
  | _ =>
    rw [handler] at called
    cases called

/-- What a decline or a release makes of the binding it finds. -/
def editAt (ip : BitVec 32) (change : IpBinding → BindingList) (b : IpBinding) : BindingList :=
  if b.address = ip then change b else [b]

/-- How it answers. -/
def answerAt (ip : BitVec 32) (accepted : Action) (found : Option IpBinding) : Action :=
  match found with
  | none => .refused
  | some b => if b.address = ip then accepted else .refused

theorem serve_edits (called : dispatch turn.task = .decline ∨ dispatch turn.task = .release) :
    ∃ wanted edit answer, Edits turn wanted edit answer := by
  rcases called with decline | release
  · refine ⟨IpBinding.matches turn.ident .dynamic .associated, editAt (ntohl turn.request.yiaddr) fun _ => [],
      answerAt (ntohl turn.request.yiaddr) (.declined (ntohl turn.request.yiaddr)), fun b => matches_cident,
      fun b holds c member => ?_, fun s => ?_⟩
    · unfold editAt at member
      split at member
      · cases member
      · rw [List.mem_singleton.mp member, matches_cident holds]
    · rw [serve, handleClient, decline]
      dsimp only
      rw [handleDHCPDecline]
      rcases searchBinding_find s.bindings turn.ident .dynamic .associated with
        ⟨search, found, same⟩ | ⟨b, search, found, gone, -, kept⟩
      · rw [search, found, same]
        rfl
      · rw [search, found, answerAt]
        dsimp only
        by_cases named : (s.bindings.get b).address = ntohl turn.request.yiaddr
        · rw [if_pos named, if_pos named, gone _ (if_pos named)]
        · rw [if_neg named, if_neg named, kept _ (if_neg named)]
  · refine ⟨IpBinding.matches turn.ident .staticOrDynamic .associated,
      editAt (ntohl turn.request.ciaddr) fun b => [b.release],
      answerAt (ntohl turn.request.ciaddr) (.released (ntohl turn.request.ciaddr)), fun b => matches_cident,
      fun b holds c member => ?_, fun s => ?_⟩
    · unfold editAt at member
      split at member
      · rw [List.mem_singleton.mp member, IpBinding.release_cident, matches_cident holds]
      · rw [List.mem_singleton.mp member, matches_cident holds]
    · rw [serve, handleClient, release]
      dsimp only
      rw [handleDHCPRelease]
      rcases searchBinding_find s.bindings turn.ident .staticOrDynamic .associated with
        ⟨search, found, same⟩ | ⟨b, search, found, -, changed, kept⟩
      · rw [search, found, same]
        rfl
      · rw [search, found, answerAt]
        dsimp only
        by_cases named : (s.bindings.get b).address = ntohl turn.request.ciaddr
        · rw [if_pos named, if_pos named, changed IpBinding.release _ (if_pos named)]
        · rw [if_neg named, if_neg named, kept _ (if_neg named)]

/-- An edit of one client's binding is not seen by a search for another's. -/
theorem unseen_of_clients {p q : IpBinding → Bool} {g : IpBinding → BindingList} {c d : ClientIdent}
    (owned : ∀ b, p b = true → b.cident = c) (made : ∀ b, p b = true → ∀ x ∈ g b, x.cident = c)
    (owned' : ∀ b, q b = true → b.cident = d) (other : c ≠ d) : Unseen p q g := by
  have unseen : ∀ b : IpBinding, b.cident = c → q b = false := by
    intro b own
    rw [Bool.eq_false_iff]
    exact fun holds => other (own.symm.trans (owned' b holds))
  exact fun b holds => ⟨unseen b (owned b holds), fun x member => unseen x (made b holds x member)⟩

end Forms

/-! ## Two turns -/

section Pairs
variable {s : Server} {a b : Turn} {p q : IpBinding → Bool} {g g' : IpBinding → BindingList}
  {answer answer' : Option IpBinding → Action}

theorem commute_acks (called : dispatch a.task = .ack) (called' : dispatch b.task = .ack) :
    CommuteAt serve s a b := by
  simp only [CommuteAt, inOrder, serve_ackOutcome called, serve_ackOutcome called', Option.bind_map, Function.comp_def]
  generalize s.bindings.find? (IpBinding.matches a.ackKey .staticOrDynamic .associated) = found
  generalize s.bindings.find? (IpBinding.matches b.ackKey .staticOrDynamic .associated) = found'
  cases found <;> cases found' <;> cases sent : a.sendOk <;> cases sent' : b.sendOk <;>
    simp [ackOutcome, ackConfig_ackConfig, sent, sent']

theorem commute_edits (edits : Edits a p g answer) (edits' : Edits b q g' answer') (other : a.ident ≠ b.ident) :
    CommuteAt serve s a b := by
  have unseen := unseen_of_clients edits.owned edits.made edits'.owned other
  have unseen' := unseen_of_clients edits'.owned edits'.made edits.owned other.symm
  simp only [CommuteAt, inOrder, edits.serve_eq, edits'.serve_eq, Option.bind_some, Option.map_some,
    find_updateFirst unseen, find_updateFirst unseen', updateFirst_comm unseen unseen']

theorem commute_ack_edit (called : dispatch a.task = .ack) (edits : Edits b q g answer) (other : a.ackKey ≠ b.ident) :
    CommuteAt serve s a b := by
  have unseen : Unseen q (IpBinding.matches a.ackKey .staticOrDynamic .associated) g :=
    unseen_of_clients edits.owned edits.made (fun _ => matches_cident) other.symm
  simp only [CommuteAt, inOrder, edits.serve_eq, serve_ackOutcome called, Option.bind_some, Option.map_some,
    find_updateFirst unseen]
  cases ackOutcome a (s.bindings.find? (IpBinding.matches a.ackKey .staticOrDynamic .associated)) s.config <;> rfl

/-- The bindings a DISCOVER makes are the client's. -/
theorem offerOutcome_cident {pool : IpPoolInd} {config : DhcpConfig} :
    ∀ x ∈ (offerOutcome a pool config).2.1, x.cident = a.ident := by
  intro x member
  unfold offerOutcome at member
  split at member
  · cases member
  · split at member
    · rw [List.mem_singleton.mp member]
      rfl
    · cases member

/-- Neither the search for another client's binding nor an edit of it sees them. -/
theorem unmatched_offer {pool : IpPoolInd} {config : DhcpConfig} {c : ClientIdent}
    (owned : ∀ x, q x = true → x.cident = c) (other : a.ident ≠ c) :
    ∀ x ∈ (offerOutcome a pool config).2.1, q x = false := by
  intro x member
  rw [Bool.eq_false_iff]
  exact fun holds => other ((offerOutcome_cident x member).symm.trans (owned x holds))

variable {pool : IpPoolInd}

theorem commute_offer_ack (alloc : Allocated pool s) (called : dispatch a.task = .offer)
    (called' : dispatch b.task = .ack) (other : a.ident ≠ b.ackKey) : CommuteAt serve s a b := by
  have unmatched :
      ∀ x ∈ (offerOutcome a s.pool s.config).2.1, x.matches b.ackKey .staticOrDynamic .associated = false :=
    unmatched_offer (fun _ => matches_cident) other
  have found : ((offerOutcome a s.pool s.config).2.1 ++ s.bindings).find?
      (IpBinding.matches b.ackKey .staticOrDynamic .associated) =
        s.bindings.find? (IpBinding.matches b.ackKey .staticOrDynamic .associated) := by
    rw [List.find?_append, List.find?_eq_none.mpr fun x member => by simp [unmatched x member], Option.none_or]
  simp only [CommuteAt, inOrder, serve_offerOutcome alloc.bounds called, serve_ackOutcome called', Option.bind_some,
    found]
  rcases s.bindings.find? (IpBinding.matches b.ackKey .staticOrDynamic .associated) with _ | x
  · simp only [ackOutcome, Option.map_some, Option.bind_some, serve_offerOutcome alloc.bounds called]
  · cases sent : b.sendOk with
    | false => simp [ackOutcome, sent]
    | true =>
      have kept : CursorBounds s.pool s.bindings := alloc.bounds
      simp only [ackOutcome, sent, if_true, Option.map_some, Option.bind_some]
      rw [@serve_offerOutcome { s with config := ackConfig s.config } a kept called]
      rfl

theorem commute_offer_edit (alloc : Allocated pool s) (called : dispatch a.task = .offer)
    (edits : Edits b q g answer) (other : a.ident ≠ b.ident) : CommuteAt serve s a b := by
  have alloc' := alloc.served (served_of_serve (edits.serve_eq s))
  have bounds : CursorBounds s.pool (updateFirst q g s.bindings) := alloc'.bounds
  have unmatched : ∀ x ∈ (offerOutcome a s.pool s.config).2.1, q x = false := unmatched_offer edits.owned other
  have found : ((offerOutcome a s.pool s.config).2.1 ++ s.bindings).find? q = s.bindings.find? q := by
    rw [List.find?_append, List.find?_eq_none.mpr fun x member => by simp [unmatched x member], Option.none_or]
  have later := @serve_offerOutcome { s with bindings := updateFirst q g s.bindings } a bounds called
  simp only [CommuteAt, inOrder, serve_offerOutcome alloc.bounds called, edits.serve_eq, Option.bind_some,
    Option.map_some, later, found, updateFirst_append unmatched]

/-- A turn without a client commutes with what keeps the configuration, and an INFORM with no more. -/
theorem commute_reads (none : a.client = none) (kept : dispatch a.task = .inform → dispatch b.task ≠ .ack) :
    CommuteAt serve s a b := by
  obtain ⟨r, blind, reads⟩ := serve_reads none
  refine @CommuteAt.of_reads _ _ _ serve s a b (fun s => r s.config) reads fun t o stepped => ?_
  by_cases inform : dispatch a.task = .inform
  · have other := kept inform
    cases served_of_serve stepped with
    | acked called => exact (other called).elim
    | _ => rfl
  · exact blind inform _ _

/-- Independent turns that are not both REQUESTs are of different clients. -/
theorem IndependentTurns.differ {c d : ClientIdent} (independent : IndependentTurns a b) (client : a.client = some c)
    (client' : b.client = some d) (apart : ¬ (dispatch a.task = .ack ∧ dispatch b.task = .ack)) : c ≠ d := by
  rintro rfl
  exact independent.clients.resolve_left apart c client client'

/-- **Independent turns commute.** -/
theorem commute_of_independent (alloc : Allocated pool s) (independent : IndependentTurns a b) :
    CommuteAt serve s a b := by
  have reads : a.client = none → CommuteAt serve s a b := fun none =>
    commute_reads none fun inform ack => independent.dns.2 ⟨inform, ack⟩
  have reads' : b.client = none → CommuteAt serve s a b := fun none =>
    (commute_reads none fun inform ack => independent.dns.1 ⟨ack, inform⟩).symm
  cases turnKind a with
  | reads none => exact reads none
  | offer called client =>
    cases turnKind b with
    | reads none => exact reads' none
    | offer called' => exact (independent.cursor ⟨called, called'⟩).elim
    | ack called' client' =>
      exact commute_offer_ack alloc called called' (independent.differ client client' (by simp [called]))
    | edit called' client' =>
      obtain ⟨_, _, _, edits⟩ := serve_edits called'
      exact commute_offer_edit alloc called edits (independent.differ client client' (by simp [called]))
  | ack called client =>
    cases turnKind b with
    | reads none => exact reads' none
    | offer called' client' =>
      exact (commute_offer_ack alloc called' called (independent.symm.differ client' client (by simp [called']))).symm
    | ack called' => exact commute_acks called called'
    | edit called' client' =>
      obtain ⟨_, _, _, edits⟩ := serve_edits called'
      refine commute_ack_edit called edits (independent.differ client client' ?_)
      rcases called' with called' | called' <;> simp [called']
  | edit called client =>
    obtain ⟨_, _, _, edits⟩ := serve_edits called
    cases turnKind b with
    | reads none => exact reads' none
    | offer called' client' =>
      exact (commute_offer_edit alloc called' edits (independent.symm.differ client' client (by simp [called']))).symm
    | ack called' client' =>
      refine (commute_ack_edit called' edits (independent.symm.differ client' client ?_)).symm
      rcases called with called | called <;> simp [called]
    | edit called' client' =>
      obtain ⟨_, _, _, edits'⟩ := serve_edits called'
      refine commute_edits edits edits' (independent.differ client client' ?_)
      rcases called with called | called <;> simp [called]

end Pairs

/-- **Independent datagrams may overtake one another.** A history stays one of the server, with the same final
state, when independent neighbours change places, any number of times: every message is answered as before. -/
theorem reordering_harmless {pool : IpPoolInd} {config : DhcpConfig} {h h' : History} {s : Server}
    (run : Run serve (Server.fresh pool config) h s) (swapped : Swapped IndependentTurns h h') :
    Run serve (Server.fresh pool config) h' s := by
  refine @Run.swapped _ _ _ serve _ s h h' (Allocated pool) IndependentTurns (.fresh pool config) ?_ ?_ run swapped
  · exact fun s turn t action alloc stepped => alloc.served (served_of_serve stepped)
  · exact fun s a b alloc independent => commute_of_independent alloc independent.symm

/-- The REQUEST of one client and the RELEASE of another one. -/
theorem independent_request_release :
    IndependentTurns (requestFor macB 0xC0A80111#32).turn (releaseOf macA 0xC0A80110#32).turn where
  clients := Or.inr fun c held held' => by
    rw [show (requestFor macB 0xC0A80111#32).turn.client = some (discover macB).turn.ident by decide] at held
    rw [show (releaseOf macA 0xC0A80110#32).turn.client = some (discover macA).turn.ident by decide] at held'
    cases held
    exact absurd held' (by decide)
  cursor := by decide
  dns := by decide

theorem reordering_harmless_request_release : ∃ h h' s,
    h.map Prod.fst = [(releaseOf macA 0xC0A80110#32).turn, (requestFor macB 0xC0A80111#32).turn,
      (discover macB).turn, (discover macA).turn] ∧
    h'.map Prod.fst = [(requestFor macB 0xC0A80111#32).turn, (releaseOf macA 0xC0A80110#32).turn,
      (discover macB).turn, (discover macA).turn] ∧
    Run serve (Server.fresh lanPool lanConfig) h s ∧ Run serve (Server.fresh lanPool lanConfig) h' s := by
  obtain ⟨s, h, run, inputs, -⟩ := @Run.of_check _ _ _ serve (Server.fresh lanPool lanConfig)
    [(discover macA).turn, (discover macB).turn, (requestFor macB 0xC0A80111#32).turn,
      (releaseOf macA 0xC0A80110#32).turn] (fun _ _ => true) (by decide)
  obtain ⟨⟨_, o⟩, _, rfl, rfl, rest⟩ := List.map_eq_cons_iff.mp inputs
  obtain ⟨⟨_, o'⟩, older, rfl, rfl, rest⟩ := List.map_eq_cons_iff.mp rest
  have swapped : Swapped IndependentTurns (((releaseOf macA 0xC0A80110#32).turn, o) ::
      ((requestFor macB 0xC0A80111#32).turn, o') :: older) (((requestFor macB 0xC0A80111#32).turn, o') ::
      ((releaseOf macA 0xC0A80110#32).turn, o) :: older) :=
    @Swapped.swap _ _ IndependentTurns _ [] older _ _ o o' independent_request_release.symm (.refl _)
  exact ⟨_, _, s, inputs, by simpa using rest, run, reordering_harmless run swapped⟩

end DhcpServer
