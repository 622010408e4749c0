import DhcpServer.Client
import DhcpServer.Lib.Search

/-!
# The two look-ups (`find_binding`, `search_binding`)

`find_binding` takes the value of `memcmp` for a truth value, so it looks for an identifier of the right
length with other bytes. `send_DHCP_Ack` has its call in a comment.
-/

namespace DhcpServer
set_option autoImplicit false
open Lib

/-- `memcmp` of as many bytes as both have: zero when they are the same. -/
def memcmpDiffers (bytes bytes' : List Byte) : Bool := bytes != bytes'

/-- `find_binding`. -/
def findBinding (list : BindingList) (ident : ClientIdent) : Option (Fin list.length) :=
  list.findFinIdx? fun b =>
    b.cident.bytes.length == ident.bytes.length && memcmpDiffers b.cident.bytes ident.bytes

/-- Both look-ups yield the first binding with the identifier. -/
def LookupsAgree (list : BindingList) (ident : ClientIdent) : Prop :=
  findBinding list ident = searchBinding list ident .staticOrDynamic .empty ∧
    searchBinding list ident .staticOrDynamic .empty = list.findFinIdx? fun b => b.cident == ident

section Lookups
variable {list : BindingList} {ident : ClientIdent}

/-- `search_binding` with any assignment and status looks at the identifier alone. -/
theorem searchBinding_any :
    searchBinding list ident .staticOrDynamic .empty = list.findFinIdx? fun b => b.cident == ident := by
  have test : IpBinding.matches ident .staticOrDynamic .empty = fun b => b.cident == ident := by
    funext b
    simp [IpBinding.matches]
  rw [searchBinding, test]

/-- A binding whose identifier has the length is found by one of the two. -/
theorem passes_neither_iff {b : IpBinding} :
    (b.cident.bytes.length == ident.bytes.length && memcmpDiffers b.cident.bytes ident.bytes) = false ∧
      (b.cident == ident) = false ↔ b.cident.bytes.length ≠ ident.bytes.length := by
  constructor
  · rintro ⟨same, other⟩ length
    rw [beq_iff_eq.mpr length, Bool.true_and, memcmpDiffers, bne_eq_false_iff_eq] at same
    exact beq_eq_false_iff_ne.mp other (ClientIdent.ext same)
  · intro length
    refine ⟨by rw [beq_eq_false_iff_ne.mpr length, Bool.false_and], beq_eq_false_iff_ne.mpr fun same => ?_⟩
    exact length (congrArg (fun c : ClientIdent => c.bytes.length) same)

end Lookups

/-- **When the two look-ups agree**: when no binding has an identifier of the length. -/
theorem lookups_agree_iff (list : BindingList) (ident : ClientIdent) :
    LookupsAgree list ident ↔ ∀ b ∈ list, b.cident.bytes.length ≠ ident.bytes.length := by
  have exclusive : ∀ b : IpBinding, (b.cident.bytes.length == ident.bytes.length &&
      memcmpDiffers b.cident.bytes ident.bytes) = true → (b.cident == ident) = false := by
    intro b differs
    refine beq_eq_false_iff_ne.mpr fun same => ?_
    rw [same, memcmpDiffers, bne_self_eq_false, Bool.and_false] at differs
    cases differs
  rw [LookupsAgree, and_iff_left searchBinding_any, searchBinding_any, findBinding,
    findFin_eq_iff_of_exclusive exclusive]
  exact forall₂_congr fun b _ => passes_neither_iff

/-- The only binding is its client's: `find_binding` misses it for the client and finds it for another one. -/
theorem binding_not_found :
    findBinding [newBinding (discover macA).turn lanConfig 0xC0A80110#32] (discover macA).turn.ident = none ∧
      searchBinding [newBinding (discover macA).turn lanConfig 0xC0A80110#32] (discover macA).turn.ident
        .staticOrDynamic .empty = some 0 ∧
      findBinding [newBinding (discover macA).turn lanConfig 0xC0A80110#32] (discover macB).turn.ident = some 0 ∧
      ¬ LookupsAgree [newBinding (discover macA).turn lanConfig 0xC0A80110#32] (discover macA).turn.ident := by
  have missed : findBinding [newBinding (discover macA).turn lanConfig 0xC0A80110#32] (discover macA).turn.ident =
      none := by decide
  have found : searchBinding [newBinding (discover macA).turn lanConfig 0xC0A80110#32] (discover macA).turn.ident
      .staticOrDynamic .empty = some 0 := by decide
  refine ⟨missed, found, by decide, fun agree => ?_⟩
  rw [LookupsAgree, missed, found] at agree
  cases agree.1

end DhcpServer
