import Mathlib.Data.List.Nodup

/-!
# Search in a list

`findFinIdx?` is the pointer a head-first search returns. A successful search splits the list
around the element found; removing or updating that element is then a fact about the split. A loop
without a `break` finds the last match instead.
-/

namespace Lib
set_option autoImplicit false

variable {α : Type} {p : α → Bool}

/-- The element found, what the search passed over, and the rest. -/
theorem findFin_split {l : List α} {i : Fin l.length} (found : l.findFinIdx? p = some i) :
    ∃ front back, l = front ++ l.get i :: back ∧ front.length = i ∧ p (l.get i) = true ∧
      ∀ x ∈ front, p x = false := by
  have index : l.findIdx? p = some i.val := by rw [List.findIdx?_eq_map_findFinIdx?_val, found]; rfl
  obtain ⟨bound, holds, first⟩ := List.findIdx?_eq_some_iff_getElem.mp index
  refine ⟨l.take i, l.drop (i + 1), ?_, by simp, holds, ?_⟩
  · rw [List.get_eq_getElem, ← List.drop_eq_getElem_cons bound, List.take_append_drop]
  · intro x member
    obtain ⟨j, hj, rfl⟩ := List.mem_iff_getElem.mp member
    have below : j < i := by
      rw [List.length_take] at hj
      omega
    rw [List.getElem_take]
    exact Bool.eq_false_iff.mpr (first j below)

theorem findFin_none {l : List α} : l.findFinIdx? p = none ↔ ∀ x ∈ l, p x = false := by
  rw [← List.findIdx?_eq_none_iff, List.findIdx?_eq_map_findFinIdx?_val, Option.map_eq_none_iff]

/-- The first match is what a search finds. -/
theorem findFin_of_split {front back : List α} {x : α} (holds : p x = true) (before : ∀ y ∈ front, p y = false) :
    ∃ i, (front ++ x :: back).findFinIdx? p = some i ∧ i.val = front.length ∧ (front ++ x :: back).get i = x := by
  have bound : front.length < (front ++ x :: back).length := by simp
  refine ⟨⟨front.length, bound⟩, List.findFinIdx?_eq_some_iff.mpr ⟨by simpa using holds, fun j below => ?_⟩, rfl, by simp⟩
  have inFront : j.val < front.length := below
  rw [Fin.getElem_fin, List.getElem_append_left inFront, before _ (List.getElem_mem inFront)]
  exact Bool.false_ne_true

/-- The search as one through the positions. -/
theorem find_finRange (l : List α) : ((List.finRange l.length).find? fun i => p (l.get i)) = l.findFinIdx? p := by
  induction l with
  | nil => rfl
  | cons a l ih =>
    show ((List.finRange (l.length + 1)).find? fun i => p ((a :: l).get i)) = _
    rw [List.finRange_succ, List.find?_cons, List.find?_map, List.findFinIdx?_cons, ← ih, List.get_cons_zero]
    cases p a <;> rfl

/-- Searches with tests that exclude each other agree when neither finds anything. -/
theorem findFin_eq_iff_of_exclusive {q : α → Bool} {l : List α} (exclusive : ∀ x, p x = true → q x = false) :
    l.findFinIdx? p = l.findFinIdx? q ↔ ∀ x ∈ l, p x = false ∧ q x = false := by
  constructor
  · intro same
    cases found : l.findFinIdx? p with
    | none => exact fun x member => ⟨findFin_none.mp found x member, findFin_none.mp (same ▸ found) x member⟩
    | some i =>
      obtain ⟨-, -, -, -, first, -⟩ := findFin_split found
      obtain ⟨-, -, -, -, second, -⟩ := findFin_split (same ▸ found)
      rw [exclusive _ first] at second
      cases second
  · intro neither
    rw [findFin_none.mpr fun x member => (neither x member).1, findFin_none.mpr fun x member => (neither x member).2]

/-- A loop that goes on behind a match keeps the last one. -/
theorem foldl_last {β : Type} (p : β → Bool) (g : α → β) (l : List α) (found : Option α) :
    (l.foldl (fun found a => if p (g a) then some a else found) found).map g =
      ((l.map g).filter p).getLast?.or (found.map g) := by
  induction l generalizing found with
  | nil => rfl
  | cons a l ih =>
    rw [List.foldl_cons, ih, List.map_cons, List.filter_cons]
    split
    · rw [List.getLast?_cons]
      cases ((l.map g).filter p).getLast? <;> rfl
    · rfl

/-- The same when it keeps something of the match. -/
theorem foldl_last_kept {β : Type} (p : α → Bool) (g : α → β) (l : List α) (kept : Option β) :
    l.foldl (fun kept a => if p a then some (g a) else kept) kept = ((l.filter p).getLast?.map g).or kept := by
  induction l generalizing kept with
  | nil => rfl
  | cons a l ih =>
    rw [List.foldl_cons, ih, List.filter_cons]
    split
    · rw [List.getLast?_cons]
      cases (l.filter p).getLast? <;> rfl
    · rfl

/-- A loop whose body never fails is a fold. -/
theorem foldlM_total {β σ : Type} {body : σ → β → Option σ} {step : σ → α → σ} {g : α → β} {l : List α}
    (turn : ∀ s, ∀ a ∈ l, body s (g a) = some (step s a)) (s : σ) :
    (l.map g).foldlM body s = some (l.foldl step s) := by
  induction l generalizing s with
  | nil => rfl
  | cons a l ih =>
    obtain ⟨here, others⟩ : (∀ s, body s (g a) = some (step s a)) ∧ ∀ s, ∀ a ∈ l, body s (g a) = some (step s a) :=
      ⟨fun s => turn s a List.mem_cons_self, fun s b member => turn s b (List.mem_cons_of_mem a member)⟩
    rw [List.map_cons, List.foldlM_cons, here, List.foldl_cons]
    exact ih others (step s a)

/-- A search whose second test is the same at every element: the first element that passes the first test
decides. -/
theorem findM_second {β : Type} {body : β → Option Bool} {second : Option Bool} {g : α → β} {l : List α}
    (turn : ∀ a ∈ l, body (g a) = if p a then second else some false) :
    (l.map g).findM? body = (l.find? p).elim (some none) fun a => second.map fun passes =>
      if passes then some (g a) else none := by
  induction l with
  | nil => rfl
  | cons a l ih =>
    obtain ⟨here, others⟩ := List.forall_mem_cons.mp turn
    rw [List.map_cons, List.findM?, here, List.find?_cons]
    cases p a with
    | false => exact ih others
    | true =>
      cases second with
      | none => rfl
      | some passes =>
        cases passes with
        | true => rfl
        | false =>
          -- the other elements fail the second test as this one does
          refine (ih others).trans ?_
          cases l.find? p <;> rfl

theorem eraseIdx_split (front : List α) (x : α) (back : List α) :
    (front ++ x :: back).eraseIdx front.length = front ++ back := by
  rw [List.eraseIdx_append_of_length_le (Nat.le_refl _), Nat.sub_self]
  rfl

theorem modify_split (front : List α) (x : α) (back : List α) (f : α → α) :
    (front ++ x :: back).modify front.length f = front ++ f x :: back := by
  induction front with
  | nil => rfl
  | cons y front ih => simpa using ih

/-! ## Editing the first match -/

/-- What the first match becomes: a list, so that it may go away. -/
def updateFirst (p : α → Bool) (g : α → List α) : List α → List α
  | [] => []
  | x :: l => if p x then g x ++ l else x :: updateFirst p g l

section UpdateFirst
variable {q : α → Bool} {g g' : α → List α} {l front back : List α} {x : α}

/-- What does not match is passed over. -/
theorem updateFirst_append (unmatched : ∀ y ∈ front, p y = false) :
    updateFirst p g (front ++ l) = front ++ updateFirst p g l := by
  induction front with
  | nil => rfl
  | cons y front ih =>
    obtain ⟨here, later⟩ := List.forall_mem_cons.mp unmatched
    rw [List.cons_append, updateFirst, here, ih later]
    rfl

theorem updateFirst_split (holds : p x = true) (before : ∀ y ∈ front, p y = false) :
    updateFirst p g (front ++ x :: back) = front ++ (g x ++ back) := by
  rw [updateFirst_append before, updateFirst, if_pos holds]

theorem updateFirst_none (unmatched : ∀ y ∈ l, p y = false) : updateFirst p g l = l := by
  have passed := @updateFirst_append _ p g [] l unmatched
  rwa [updateFirst, List.append_nil] at passed

/-- What an edit makes of its matches another search does not match, nor the matches themselves. -/
def Unseen (p q : α → Bool) (g : α → List α) : Prop := ∀ x, p x = true → q x = false ∧ ∀ y ∈ g x, q y = false

/-- The other search finds what it would have found. -/
theorem find_updateFirst (unseen : Unseen p q g) : (updateFirst p g l).find? q = l.find? q := by
  induction l with
  | nil => rfl
  | cons x l ih =>
    rw [updateFirst]
    split
    · rename_i holds
      obtain ⟨here, made⟩ := unseen x holds
      rw [List.find?_append, List.find?_eq_none.mpr fun y member => by simp [made y member], Option.none_or,
        List.find?_cons, here]
    · rw [List.find?_cons, List.find?_cons, ih]

/-- **Edits that do not see each other's matches commute.** -/
theorem updateFirst_comm (unseen : Unseen p q g) (unseen' : Unseen q p g') :
    updateFirst p g (updateFirst q g' l) = updateFirst q g' (updateFirst p g l) := by
  induction l with
  | nil => rfl
  | cons x l ih =>
    cases here : p x with
    | true =>
      obtain ⟨other, made⟩ := unseen x here
      simp only [updateFirst, here, other, if_true, Bool.false_eq_true, if_false]
      rw [updateFirst_append made]
    | false =>
      cases there : q x with
      | true =>
        obtain ⟨-, made⟩ := unseen' x there
        simp only [updateFirst, here, there, if_true, Bool.false_eq_true, if_false]
        rw [updateFirst_append made]
      | false => simp only [updateFirst, here, there, Bool.false_eq_true, if_false, ih]

end UpdateFirst

/-! ## Facts about every element -/

theorem forall_remove {P : α → Prop} {front back : List α} {x : α}
    (each : ∀ y ∈ front ++ x :: back, P y) : ∀ y ∈ front ++ back, P y := by
  simp only [List.forall_mem_append, List.forall_mem_cons] at each ⊢
  exact ⟨each.1, each.2.2⟩

theorem forall_replace {P : α → Prop} {front back : List α} {x x' : α}
    (each : ∀ y ∈ front ++ x :: back, P y) (here : P x → P x') : ∀ y ∈ front ++ x' :: back, P y := by
  simp only [List.forall_mem_append, List.forall_mem_cons] at each ⊢
  exact ⟨each.1, here each.2.1, each.2.2⟩

theorem remove_sublist (front : List α) (x : α) (back : List α) :
    (front ++ back).Sublist (front ++ x :: back) :=
  (List.sublist_cons_self x back).append_left front

/-! ## Elements with distinct keys -/

section Keys
variable {κ : Type} {key : α → κ} {l front back : List α} {x : α}

theorem key_ne_of_split (split : l = front ++ x :: back) (nodup : (l.map key).Nodup) :
    (∀ y ∈ front, key y ≠ key x) ∧ ∀ y ∈ back, key y ≠ key x := by
  rw [split] at nodup
  have moved := (List.perm_middle.map key).nodup_iff.mp nodup
  rw [List.map_cons, List.nodup_cons] at moved
  apply List.forall_mem_append.mp
  exact fun y member same => moved.1 (same ▸ List.mem_map_of_mem member)

variable [BEq κ] [LawfulBEq κ]

/-- Filtering out the key of one element removes that element. -/
theorem filter_key_split (split : l = front ++ x :: back) (nodup : (l.map key).Nodup) :
    l.filter (fun y => key y != key x) = front ++ back := by
  obtain ⟨before, after⟩ := key_ne_of_split split nodup
  rw [split, List.filter_append, List.filter_cons_of_neg (by simp), List.filter_eq_self.mpr,
    List.filter_eq_self.mpr]
  · exact fun y member => bne_iff_ne.mpr (after y member)
  · exact fun y member => bne_iff_ne.mpr (before y member)

/-- Mapping at the key of one element changes that element. -/
theorem map_key_split (split : l = front ++ x :: back) (nodup : (l.map key).Nodup) (f : α → α) :
    l.map (fun y => if key y == key x then f y else y) = front ++ f x :: back := by
  obtain ⟨before, after⟩ := key_ne_of_split split nodup
  have unchanged : ∀ part : List α, (∀ y ∈ part, key y ≠ key x) →
      part.map (fun y => if key y == key x then f y else y) = part := by
    intro part others
    conv_rhs => rw [← List.map_id part]
    exact List.map_congr_left fun y member => if_neg (by simpa using others y member)
  rw [split, List.map_append, List.map_cons, unchanged front before, unchanged back after,
    if_pos (beq_self_eq_true _)]

end Keys

end Lib
