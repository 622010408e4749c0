import Mathlib.Data.List.Nodup

/-!
# Ledgers of grants

A book records, newest entry first, which item was granted to which holder and which grants
were retired again. `outstanding k` is what holder `k` still has, newest first. `MostRecent`
says the same of its head without any accumulator: a grant that was not retired since, after
which every grant to `k` was. In a kept book no item is granted twice and only outstanding
grants are retired.
-/

namespace Lib.Ledger
set_option autoImplicit false

inductive Entry (κ α : Type) where
  | grant (holder : κ) (item : α)
  | retire (holder : κ) (item : α)

/-- Newest entry first. -/
abbrev Book (κ α : Type) := List (Entry κ α)

section Ledger
variable {κ α : Type} [DecidableEq κ] [DecidableEq α]

/-- The items holder `k` was granted and still has, newest first. -/
def outstanding (k : κ) : Book κ α → List α
  | [] => []
  | .grant d x :: book => if d = k then x :: outstanding k book else outstanding k book
  | .retire d x :: book =>
    if d = k then (outstanding k book).filter (· != x) else outstanding k book

/-- All items ever granted. -/
def granted : Book κ α → List α
  | [] => []
  | .grant _ x :: book => x :: granted book
  | .retire _ _ :: book => granted book

/-- How often `k` was granted an item. -/
def grants (k : κ) : Book κ α → Nat
  | [] => 0
  | .grant d _ :: book => if d = k then grants k book + 1 else grants k book
  | .retire _ _ :: book => grants k book

/-- How often a grant of `k` was retired. -/
def retires (k : κ) : Book κ α → Nat
  | [] => 0
  | .grant _ _ :: book => retires k book
  | .retire d _ :: book => if d = k then retires k book + 1 else retires k book

/-- The grant of `a` to `k` is the most recent one of `k` not retired since. -/
def MostRecent (k : κ) (a : α) (book : Book κ α) : Prop :=
  ∃ newer older, book = newer ++ .grant k a :: older ∧ .retire k a ∉ newer ∧
    ∀ n₁ n₂ a', newer = n₁ ++ .grant k a' :: n₂ → .retire k a' ∈ n₁

/-- Every grant is of a fresh item and every retirement of an outstanding one. -/
inductive Kept : Book κ α → Prop where
  | nil : Kept []
  | grant {book : Book κ α} {k : κ} {x : α} : Kept book → x ∉ granted book → Kept (.grant k x :: book)
  | retire {book : Book κ α} {k : κ} {x : α} : Kept book → x ∈ outstanding k book → Kept (.retire k x :: book)

/-! ## The head of the outstanding list -/

/-- `MostRecent` when the items in `gone` count as retired. -/
def MostRecentBut (gone : List α) (k : κ) (a : α) (book : Book κ α) : Prop :=
  ∃ newer older, book = newer ++ .grant k a :: older ∧ a ∉ gone ∧ .retire k a ∉ newer ∧
    ∀ n₁ n₂ a', newer = n₁ ++ .grant k a' :: n₂ → a' ∈ gone ∨ .retire k a' ∈ n₁

omit [DecidableEq κ] [DecidableEq α] in
theorem mostRecent_iff_but {k : κ} {a : α} {book : Book κ α} :
    MostRecent k a book ↔ MostRecentBut [] k a book := by
  simp [MostRecent, MostRecentBut]

omit [DecidableEq κ] [DecidableEq α] in
/-- An entry that neither grants to `k` nor retires from `k` can be ignored. -/
theorem mostRecentBut_skip {gone : List α} {k : κ} {a : α} {e : Entry κ α} {book : Book κ α}
    (grant : ∀ x, e = .grant k x → x ∈ gone) (retire : ∀ x, e ≠ .retire k x) :
    MostRecentBut gone k a (e :: book) ↔ MostRecentBut gone k a book := by
  constructor
  · rintro ⟨newer, older, split, alive, kept, later⟩
    cases newer with
    | nil =>
      obtain ⟨rfl, -⟩ := List.cons.inj split
      exact (alive (grant a rfl)).elim
    | cons e' newer =>
      obtain ⟨rfl, rest⟩ := List.cons.inj split
      refine ⟨newer, older, rest, alive, fun member => kept (.tail _ member), ?_⟩
      intro n₁ n₂ a' middle
      rcases later (e :: n₁) n₂ a' (by rw [middle]; rfl) with there | there
      · exact Or.inl there
      · rcases List.mem_cons.mp there with same | there
        · exact (retire a' same.symm).elim
        · exact Or.inr there
  · rintro ⟨newer, older, rfl, alive, kept, later⟩
    refine ⟨e :: newer, older, rfl, alive, ?_, ?_⟩
    · intro member
      rcases List.mem_cons.mp member with same | member
      · exact retire a same.symm
      · exact kept member
    · intro n₁ n₂ a' middle
      cases n₁ with
      | nil =>
        obtain ⟨same, -⟩ := List.cons.inj middle
        exact Or.inl (grant a' same)
      | cons e' n₁ =>
        obtain ⟨rfl, rest⟩ := List.cons.inj middle
        rcases later n₁ n₂ a' rest with there | there
        · exact Or.inl there
        · exact Or.inr (.tail _ there)

omit [DecidableEq κ] [DecidableEq α] in
/-- A newest grant to `k` that is not gone is the most recent one. -/
theorem mostRecentBut_grant {gone : List α} {k : κ} {a x : α} {book : Book κ α} (alive : x ∉ gone) :
    MostRecentBut gone k a (.grant k x :: book) ↔ x = a := by
  constructor
  · rintro ⟨newer, older, split, -, -, later⟩
    cases newer with
    | nil =>
      obtain ⟨same, -⟩ := List.cons.inj split
      exact (Entry.grant.inj same).2
    | cons e newer =>
      obtain ⟨rfl, -⟩ := List.cons.inj split
      rcases later [] newer x rfl with there | there
      · exact (alive there).elim
      · cases there
  · rintro rfl
    refine ⟨[], book, rfl, alive, by simp, ?_⟩
    intro n₁ n₂ a' middle
    simp at middle

omit [DecidableEq κ] [DecidableEq α] in
/-- A newest retirement from `k` only makes its item gone. -/
theorem mostRecentBut_retire {gone : List α} {k : κ} {a x : α} {book : Book κ α} :
    MostRecentBut gone k a (.retire k x :: book) ↔ MostRecentBut (x :: gone) k a book := by
  constructor
  · rintro ⟨newer, older, split, alive, kept, later⟩
    cases newer with
    | nil => cases (List.cons.inj split).1
    | cons e newer =>
      obtain ⟨rfl, rest⟩ := List.cons.inj split
      have other : a ≠ x := by
        rintro rfl
        exact kept (.head _)
      refine ⟨newer, older, rest, by simp [other, alive], fun member => kept (.tail _ member), ?_⟩
      intro n₁ n₂ a' middle
      rcases later (.retire k x :: n₁) n₂ a' (by rw [middle]; rfl) with there | there
      · exact Or.inl (.tail _ there)
      · rcases List.mem_cons.mp there with same | there
        · exact Or.inl (by rw [(Entry.retire.inj same).2]; exact .head _)
        · exact Or.inr there
  · rintro ⟨newer, older, rfl, alive, kept, later⟩
    obtain ⟨other, alive⟩ := not_or.mp (mt List.mem_cons.mpr alive)
    refine ⟨.retire k x :: newer, older, rfl, alive, ?_, ?_⟩
    · intro member
      rcases List.mem_cons.mp member with same | member
      · exact other (Entry.retire.inj same).2
      · exact kept member
    · intro n₁ n₂ a' middle
      cases n₁ with
      | nil => cases (List.cons.inj middle).1
      | cons e n₁ =>
        obtain ⟨rfl, rest⟩ := List.cons.inj middle
        rcases later n₁ n₂ a' rest with there | there
        · rcases List.mem_cons.mp there with same | there
          · exact Or.inr (by rw [same]; exact .head _)
          · exact Or.inl there
        · exact Or.inr (.tail _ there)

/-- The accumulator of the walk back through a book: the items already seen retired. -/
theorem head_outstanding_but (k : κ) (a : α) (book : Book κ α) (gone : List α) :
    ((outstanding k book).filter (fun y => decide (y ∉ gone))).head? = some a ↔
      MostRecentBut gone k a book := by
  induction book generalizing gone with
  | nil =>
    constructor
    · intro head
      cases head
    · rintro ⟨newer, older, split, -⟩
      simp at split
  | cons e book ih =>
    cases e with
    | grant d x =>
      by_cases holder : d = k
      · subst holder
        rw [outstanding, if_pos rfl]
        by_cases alive : x ∈ gone
        · rw [List.filter_cons_of_neg (by simp [alive]), ih]
          exact (mostRecentBut_skip (fun y same => (Entry.grant.inj same).2 ▸ alive) nofun).symm
        · rw [List.filter_cons_of_pos (by simp [alive]), mostRecentBut_grant alive]
          simp
      · rw [outstanding, if_neg holder, ih]
        exact (mostRecentBut_skip (fun y same => (holder (Entry.grant.inj same).1).elim) nofun).symm
    | retire d x =>
      by_cases holder : d = k
      · subst holder
        have merge : (fun y => decide (y ∉ gone) && (y != x)) = fun y => decide (y ∉ x :: gone) := by
          funext y
          by_cases same : y = x <;> simp [same]
        rw [outstanding, if_pos rfl, List.filter_filter, mostRecentBut_retire, ← ih, merge]
      · rw [outstanding, if_neg holder, ih]
        exact (mostRecentBut_skip nofun fun y same => holder (Entry.retire.inj same).1).symm

/-- **The head of the outstanding list is the most recent unretired grant.** -/
theorem head_outstanding_iff {k : κ} {a : α} {book : Book κ α} :
    (outstanding k book).head? = some a ↔ MostRecent k a book := by
  rw [mostRecent_iff_but, ← head_outstanding_but]
  simp

omit [DecidableEq κ] [DecidableEq α] in
theorem MostRecent.grant_mem {k : κ} {a : α} {book : Book κ α} (recent : MostRecent k a book) :
    .grant k a ∈ book := by
  obtain ⟨newer, older, rfl, -⟩ := recent
  simp

/-! ## Kept books -/

theorem grant_of_outstanding {k : κ} {a : α} {book : Book κ α} (held : a ∈ outstanding k book) :
    .grant k a ∈ book := by
  induction book with
  | nil => cases held
  | cons e book ih =>
    cases e with
    | grant d x =>
      rw [outstanding] at held
      split at held
      · rename_i holder
        rcases List.mem_cons.mp held with rfl | held
        · exact holder ▸ .head _
        · exact .tail _ (ih held)
      · exact .tail _ (ih held)
    | retire d x =>
      rw [outstanding] at held
      split at held
      · exact .tail _ (ih (List.mem_of_mem_filter held))
      · exact .tail _ (ih held)

/-- Only a grant to `k` makes more outstanding. -/
theorem outstanding_cons_length {k : κ} {e : Entry κ α} {book : Book κ α} (other : ∀ x, e ≠ .grant k x) :
    (outstanding k (e :: book)).length ≤ (outstanding k book).length := by
  cases e with
  | grant d x =>
    apply Nat.le_of_eq
    rw [outstanding, if_neg fun holder => other x (by rw [holder])]
  | retire d x =>
    rw [outstanding]
    split
    · exact List.length_filter_le _ _
    · exact Nat.le_refl _

omit [DecidableEq κ] [DecidableEq α] in
theorem granted_of_grant {k : κ} {a : α} {book : Book κ α} (entry : .grant k a ∈ book) :
    a ∈ granted book := by
  induction book with
  | nil => cases entry
  | cons e book ih =>
    cases e with
    | grant d x =>
      rcases List.mem_cons.mp entry with same | entry
      · rw [(Entry.grant.inj same).2]
        exact .head _
      · exact .tail _ (ih entry)
    | retire d x =>
      rcases List.mem_cons.mp entry with same | entry
      · cases same
      · exact ih entry

/-- No item is granted to two holders. -/
theorem Kept.one_holder {book : Book κ α} (kept : Kept book) {k k' : κ} {a : α}
    (one : .grant k a ∈ book) (other : .grant k' a ∈ book) : k = k' := by
  induction kept with
  | nil => cases one
  | @grant book d x _ fresh ih =>
    rcases List.mem_cons.mp one with same | one
    · rcases List.mem_cons.mp other with same' | other
      · rw [(Entry.grant.inj same).1, (Entry.grant.inj same').1]
      · exact (fresh ((Entry.grant.inj same).2 ▸ granted_of_grant other)).elim
    · rcases List.mem_cons.mp other with same' | other
      · exact (fresh ((Entry.grant.inj same').2 ▸ granted_of_grant one)).elim
      · exact ih one other
  | retire _ _ ih =>
    apply ih
    · rcases List.mem_cons.mp one with same | one
      · cases same
      · exact one
    · rcases List.mem_cons.mp other with same | other
      · cases same
      · exact other

/-- Nothing is outstanding twice. -/
theorem Kept.outstanding_nodup {book : Book κ α} (kept : Kept book) (k : κ) :
    (outstanding k book).Nodup := by
  induction kept with
  | nil => exact List.nodup_nil
  | grant _ fresh ih =>
    rw [outstanding]
    split
    · exact List.nodup_cons.mpr ⟨fun held => fresh (granted_of_grant (grant_of_outstanding held)), ih⟩
    · exact ih
  | retire _ _ ih =>
    rw [outstanding]
    split
    · exact ih.filter _
    · exact ih

/-- **Accounting**: what is outstanding is what was granted less what was retired. -/
theorem Kept.outstanding_length {book : Book κ α} (kept : Kept book) (k : κ) :
    (outstanding k book).length + retires k book = grants k book := by
  induction kept with
  | nil => rfl
  | grant _ _ ih =>
    rw [outstanding, retires, grants]
    split
    · rw [List.length_cons]
      omega
    · exact ih
  | @retire book d x kept held ih =>
    rw [outstanding, retires, grants]
    split
    · rename_i holder
      subst holder
      have positive := List.length_pos_of_mem held
      rw [← (kept.outstanding_nodup d).erase_eq_filter x, List.length_erase_of_mem held]
      omega
    · exact ih

end Ledger

end Lib.Ledger
