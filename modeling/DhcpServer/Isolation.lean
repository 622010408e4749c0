import DhcpServer.Client
import DhcpServer.Step

/-!
# Client isolation

A handler reaches a binding only through a search for the sender's own identifier, or adds one
under it. What another client has in the list is therefore left alone, whatever state the list
is in.
-/

namespace DhcpServer
set_option autoImplicit false
open Lib

/-- What a client has in the list, in list order. -/
def bindingsOf (c : ClientIdent) (list : BindingList) : BindingList := list.filter (·.cident == c)

section Isolation
variable {c : ClientIdent} {s t : Server} {turn : Turn} {action : Action} {front back : BindingList} {b : IpBinding}

theorem bindingsOf_append (front back : BindingList) :
    bindingsOf c (front ++ back) = bindingsOf c front ++ bindingsOf c back := List.filter_append front back

/-- Another client's binding is not seen. -/
theorem bindingsOf_skip (other : b.cident ≠ c) : bindingsOf c (b :: back) = bindingsOf c back :=
  List.filter_cons_of_neg (by simpa using other)

theorem matches_cident {ident : ClientIdent} {wanted : Assignment} {status : BindingStatus}
    (found : b.matches ident wanted status = true) : b.cident = ident := by
  simp only [IpBinding.matches, Bool.and_eq_true, beq_iff_eq] at found
  exact found.1.2

/-- **No turn touches what another client has.** -/
theorem bindingsOf_served (served : Served s turn t action) (other : turn.ident ≠ c) :
    bindingsOf c t.bindings = bindingsOf c s.bindings := by
  cases served with
  | offered => exact bindingsOf_skip other
  | declined _ search =>
    obtain ⟨front, back, split, found, -, removed, -⟩ := searchBinding_split search
    have skip := (matches_cident found).trans_ne other
    conv_rhs => rw [split]
    rw [removed, bindingsOf_append, bindingsOf_append, bindingsOf_skip skip]
  | released _ search =>
    obtain ⟨front, back, split, found, -, -, updated⟩ := searchBinding_split search
    have skip := (matches_cident found).trans_ne other
    have skip' : (s.bindings.get _).release.cident ≠ c := skip
    conv_rhs => rw [split]
    rw [updated, bindingsOf_append, bindingsOf_append, bindingsOf_skip skip, bindingsOf_skip skip']
  | _ => rfl

/-- **Client isolation.** Messages of other clients leave what a client has in the list as it is:
the same bindings with the same contents in the same order. -/
theorem client_isolation {h : History} (run : Run serve s h t) (others : ∀ e ∈ h, e.1.ident ≠ c) :
    bindingsOf c t.bindings = bindingsOf c s.bindings := by
  induction run with
  | start => rfl
  | snoc _ stepped ih =>
    obtain ⟨other, earlier⟩ := List.forall_mem_cons.mp others
    rw [bindingsOf_served (served_of_serve stepped) other, ih earlier]

/-- A client whose seven-byte address starts with A's. -/
def longA : ClientMessage := { ethernet (macA ++ [1#8]) 1#8 [] with hlen := 7#8 }

/-- A holds .16. A client with a longer address is served, then B, which names .16 in a release
and a decline. -/
theorem client_isolation_three_clients : ∃ h s h' t,
    Run serve (Server.fresh lanPool lanConfig) h s ∧ Run serve s h' t ∧
    h'.map Prod.fst = [(declineOf macB 0xC0A80110#32).turn, (releaseOf macB 0xC0A80110#32).turn,
      (discover macB).turn, longA.turn] ∧
    (bindingsOf (discover macA).turn.ident t.bindings).map IpBinding.address = [0xC0A80110#32] ∧
    bindingsOf (discover macA).turn.ident t.bindings = bindingsOf (discover macA).turn.ident s.bindings := by
  obtain ⟨t, h, run, inputs, holds⟩ := @Run.of_check _ _ _ serve (Server.fresh lanPool lanConfig)
    [(discover macA).turn, longA.turn, (discover macB).turn, (releaseOf macB 0xC0A80110#32).turn,
      (declineOf macB 0xC0A80110#32).turn]
    (fun t _ => (bindingsOf (discover macA).turn.ident t.bindings).map IpBinding.address == [0xC0A80110#32])
    (by decide)
  obtain ⟨newer, older, rfl, later, -⟩ := List.map_eq_append_iff.mp (show h.map Prod.fst =
    [(declineOf macB 0xC0A80110#32).turn, (releaseOf macB 0xC0A80110#32).turn, (discover macB).turn,
      longA.turn] ++ [(discover macA).turn] from inputs)
  obtain ⟨s, before, after⟩ := run.split
  refine ⟨older, s, newer, t, before, after, later, eq_of_beq holds, client_isolation after ?_⟩
  have others : ∀ turn ∈ newer.map Prod.fst, turn.ident ≠ (discover macA).turn.ident := by
    rw [later]
    decide
  exact fun e member => others e.1 (List.mem_map_of_mem member)

end Isolation

end DhcpServer
