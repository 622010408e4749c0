import DhcpServer.Lib.Search
import Mathlib.Logic.Function.Basic

/-!
# Linked lists with back pointers (`LIST` of `queue.h`)

Nodes at addresses, each with the address of the next one and with the slot in which its own address
is stored: the head, or the node in front. An operation that follows a pointer to a node that is not
there yields `none`. `Represents` relates the nodes to a list of addresses and values; on it a safe
traversal that edits or removes the node at hand is a `filterMap`.
-/

namespace Lib
set_option autoImplicit false

/-- Where a pointer to a node is stored. -/
inductive Slot where
  | head
  | next (p : Nat)
deriving DecidableEq

structure Node (α : Type) where
  value : α
  /-- `le_next`. -/
  next : Option Nat
  /-- `le_prev`. -/
  prev : Slot

/-- The head of a list, and the nodes there are. -/
structure Links (α : Type) where
  first : Option Nat
  nodes : Nat → Option (Node α)

namespace Links
variable {α : Type}

def setNode (h : Links α) (p : Nat) (n : Option (Node α)) : Links α :=
  { h with nodes := Function.update h.nodes p n }

/-- A pointer written through a slot. -/
def store (h : Links α) (slot : Slot) (p : Option Nat) : Option (Links α) :=
  match slot with
  | .head => some { h with first := p }
  | .next q =>
    match h.nodes q with
    | none => none
    | some n => some (h.setNode q (some { n with next := p }))

/-- `le_prev` written into the node a pointer leads to, if it leads to one. -/
def storePrev (h : Links α) (p : Option Nat) (slot : Slot) : Option (Links α) :=
  match p with
  | none => some h
  | some q =>
    match h.nodes q with
    | none => none
    | some n => some (h.setNode q (some { n with prev := slot }))

/-- `LIST_INSERT_HEAD` of a new node. -/
def insertHead (h : Links α) (p : Nat) (value : α) : Option (Links α) :=
  ((h.setNode p (some ⟨value, h.first, .head⟩)).storePrev h.first (.next p)).map fun h => { h with first := some p }

/-- `LIST_REMOVE`, and `free` of the node. -/
def remove (h : Links α) (p : Nat) : Option (Links α) :=
  match h.nodes p with
  | none => none
  | some n => ((h.storePrev n.next n.prev).bind fun h => h.store n.prev n.next).map fun h => h.setNode p none

/-- The body of a loop that gives the node at hand a new value, or removes it. -/
def edit (f : α → Option α) (h : Links α) (p : Nat) : Option (Links α) :=
  match h.nodes p with
  | none => none
  | some n =>
    match f n.value with
    | some value => some (h.setNode p (some { n with value := value }))
    | none => h.remove p

/-- `LIST_FOREACH_SAFE`: the next pointer is read before the body runs. -/
def foreachSafe (body : Links α → Nat → Option (Links α)) : Nat → Option Nat → Links α → Option (Links α)
  | _, none, h => some h
  | 0, some _, _ => none
  | fuel + 1, some p, h =>
    match h.nodes p with
    | none => none
    | some n => (body h p).bind (foreachSafe body fuel n.next)

/-- `LIST_FOREACH` up to the first value that passes the test. -/
def find (test : α → Bool) (h : Links α) : Nat → Option Nat → Option (Option Nat)
  | _, none => some none
  | 0, some _ => none
  | fuel + 1, some p =>
    match h.nodes p with
    | none => none
    | some n => if test n.value then some (some p) else find test h fuel n.next

/-- `LIST_FOREACH` over all values. -/
def walk (h : Links α) : Nat → Option Nat → Option (List α)
  | _, none => some []
  | 0, some _ => none
  | fuel + 1, some p =>
    match h.nodes p with
    | none => none
    | some n => (walk h fuel n.next).map (n.value :: ·)

/-- A field read through a pointer. -/
def read {β : Type} (h : Links α) (p : Option Nat) (field : α → β) : Option β :=
  (p.bind h.nodes).map fun n => field n.value

/-- `LIST_FOREACH` with a body that works on a variable of its own. -/
def foldM {σ : Type} (body : σ → Nat → Option σ) (h : Links α) : Nat → Option Nat → σ → Option σ
  | _, none, s => some s
  | 0, some _, _ => none
  | fuel + 1, some p, s =>
    match h.nodes p with
    | none => none
    | some n => (body s p).bind (foldM body h fuel n.next)

/-- `LIST_FOREACH` up to the first node that passes the test. -/
def findM (test : Nat → Option Bool) (h : Links α) : Nat → Option Nat → Option (Option Nat)
  | _, none => some none
  | 0, some _ => none
  | fuel + 1, some p =>
    match h.nodes p with
    | none => none
    | some n => (test p).bind fun passes => if passes then some (some p) else findM test h fuel n.next

/-- `LIST_INIT`, with no nodes yet. -/
def empty : Links α where
  first := none
  nodes := fun _ => none

end Links

/-! ## What nodes represent -/

section Represents
variable {α : Type} {nodes : Nat → Option (Node α)} {slot : Slot} {xs ys front back : List (Nat × α)}
  {p : Nat} {v : α} {stop : Option Nat}

/-- The address of the first node, or of what follows the list. -/
def firstOf (xs : List (Nat × α)) (stop : Option Nat) : Option Nat := (xs.head?.map Prod.fst).or stop

/-- The slot behind the last node, or the one in front of the list. -/
def lastSlot (slot : Slot) : List (Nat × α) → Slot
  | [] => slot
  | x :: xs => lastSlot (.next x.1) xs

/-- The nodes of a stretch of a list, from the slot in front of it to the pointer behind it. -/
def Linked (nodes : Nat → Option (Node α)) : Slot → List (Nat × α) → Option Nat → Prop
  | _, [], _ => True
  | slot, (p, v) :: xs, stop => nodes p = some ⟨v, firstOf xs stop, slot⟩ ∧ Linked nodes (.next p) xs stop

/-- The list starts at the head, and no node is in it twice. -/
structure Represents (h : Links α) (xs : List (Nat × α)) : Prop where
  first : h.first = firstOf xs none
  linked : Linked h.nodes .head xs none
  distinct : (xs.map Prod.fst).Nodup

theorem firstOf_append : firstOf (xs ++ ys) stop = firstOf xs (firstOf ys stop) := by
  cases xs <;> rfl

theorem linked_append : Linked nodes slot (xs ++ ys) stop ↔
    Linked nodes slot xs (firstOf ys stop) ∧ Linked nodes (lastSlot slot xs) ys stop := by
  induction xs generalizing slot with
  | nil => exact (and_iff_right trivial).symm
  | cons x xs ih =>
    obtain ⟨p, v⟩ := x
    rw [List.cons_append, Linked, Linked, ih, firstOf_append, and_assoc]
    rfl

/-- The nodes of other addresses do not matter. -/
theorem linked_congr {nodes' : Nat → Option (Node α)} (same : ∀ q ∈ xs.map Prod.fst, nodes' q = nodes q) :
    Linked nodes' slot xs stop ↔ Linked nodes slot xs stop := by
  induction xs generalizing slot with
  | nil => exact Iff.rfl
  | cons x xs ih =>
    obtain ⟨here, others⟩ := List.forall_mem_cons.mp same
    rw [Linked, Linked, ih others, here]

theorem lastSlot_concat : lastSlot slot (xs ++ [(p, v)]) = .next p := by
  induction xs generalizing slot with
  | nil => rfl
  | cons x xs ih => exact ih

/-- What the nodes in the middle of a list are. -/
theorem Represents.split {h : Links α} (represents : Represents h (front ++ (p, v) :: back)) :
    h.first = firstOf front (some p) ∧ Linked h.nodes .head front (some p) ∧
      h.nodes p = some ⟨v, firstOf back none, lastSlot .head front⟩ ∧ Linked h.nodes (.next p) back none := by
  obtain ⟨first, linked, -⟩ := represents
  rw [firstOf_append] at first
  obtain ⟨before, node, behind⟩ := linked_append.mp linked
  exact ⟨first, before, node, behind⟩

theorem Represents.node {h : Links α} (represents : Represents h (front ++ (p, v) :: back)) :
    h.nodes p = some ⟨v, firstOf back none, lastSlot .head front⟩ :=
  represents.split.2.2.1

/-- The addresses in front of a node and behind it are others. -/
theorem distinct_split (distinct : ((front ++ (p, v) :: back).map Prod.fst).Nodup) :
    (p ∉ front.map Prod.fst ∧ p ∉ back.map Prod.fst) ∧ ((front ++ back).map Prod.fst).Nodup := by
  rw [List.map_append, List.map_cons] at distinct
  have moved := List.perm_middle.nodup_iff.mp distinct
  rw [List.nodup_cons, List.mem_append, not_or, ← List.map_append] at moved
  exact moved

/-- A new value in a node. -/
theorem Represents.setValue {h : Links α} (represents : Represents h (front ++ (p, v) :: back)) (w : α) :
    Represents (h.setNode p (some ⟨w, firstOf back none, lastSlot .head front⟩)) (front ++ (p, w) :: back) := by
  obtain ⟨first, before, -, behind⟩ := represents.split
  obtain ⟨⟨notFront, notBack⟩, -⟩ := distinct_split represents.distinct
  have others : ∀ q, q ≠ p → (h.setNode p (some ⟨w, firstOf back none, lastSlot .head front⟩)).nodes q = h.nodes q :=
    fun q other => Function.update_of_ne other _ _
  refine ⟨?_, linked_append.mpr ⟨?_, ?_, ?_⟩, ?_⟩
  · rw [firstOf_append]
    exact first
  · exact (linked_congr fun q member => others q (ne_of_mem_of_not_mem member notFront)).mpr before
  · exact Function.update_self _ _ _
  · exact (linked_congr fun q member => others q (ne_of_mem_of_not_mem member notBack)).mpr behind
  · have distinct := represents.distinct
    rw [List.map_append, List.map_cons] at distinct ⊢
    exact distinct

/-- The slot recorded in the first node of a stretch is changed. -/
theorem linked_storePrev {h : Links α} (linked : Linked h.nodes slot xs none) (distinct : (xs.map Prod.fst).Nodup)
    (slot' : Slot) : ∃ h', h.storePrev (firstOf xs none) slot' = some h' ∧ h'.first = h.first ∧
      Linked h'.nodes slot' xs none ∧ ∀ q, q ∉ xs.map Prod.fst → h'.nodes q = h.nodes q := by
  cases xs with
  | nil => exact ⟨h, rfl, rfl, trivial, fun _ _ => rfl⟩
  | cons x xs =>
    obtain ⟨q, w⟩ := x
    obtain ⟨node, behind⟩ := linked
    obtain ⟨new, -⟩ := List.nodup_cons.mp distinct
    refine ⟨h.setNode q (some ⟨w, firstOf xs none, slot'⟩), ?_, rfl, ⟨Function.update_self _ _ _, ?_⟩, ?_⟩
    · have start : firstOf ((q, w) :: xs) none = some q := rfl
      simp only [start, Links.storePrev, node]
    · exact (linked_congr fun q' member => Function.update_of_ne (ne_of_mem_of_not_mem member new) _ _).mpr behind
    · intro q' outside
      rw [List.map_cons, List.mem_cons, not_or] at outside
      exact Function.update_of_ne outside.1 _ _

/-- The pointer behind a stretch that starts at the head is changed. -/
theorem linked_store {h : Links α} (first : h.first = firstOf xs stop) (linked : Linked h.nodes .head xs stop)
    (distinct : (xs.map Prod.fst).Nodup) (stop' : Option Nat) :
    ∃ h', h.store (lastSlot .head xs) stop' = some h' ∧ h'.first = firstOf xs stop' ∧
      Linked h'.nodes .head xs stop' ∧ ∀ q, q ∉ xs.map Prod.fst → h'.nodes q = h.nodes q := by
  rcases List.eq_nil_or_concat' xs with rfl | ⟨init, ⟨q, w⟩, rfl⟩
  · exact ⟨{ h with first := stop' }, rfl, rfl, trivial, fun _ _ => rfl⟩
  · obtain ⟨before, node, -⟩ := linked_append.mp linked
    obtain ⟨⟨new, -⟩, -⟩ := distinct_split distinct
    refine ⟨h.setNode q (some ⟨w, stop', lastSlot .head init⟩), ?_, ?_, linked_append.mpr ⟨?_, ?_, trivial⟩, ?_⟩
    · rw [lastSlot_concat]
      simp only [Links.store, node]
    · rw [firstOf_append] at first ⊢
      exact first
    · exact (linked_congr fun q' member => Function.update_of_ne (ne_of_mem_of_not_mem member new) _ _).mpr before
    · exact Function.update_self _ _ _
    · intro q' outside
      rw [List.map_append, List.mem_append, not_or] at outside
      exact Function.update_of_ne (fun same => outside.2 (List.mem_singleton.mpr same)) _ _

/-- **`LIST_REMOVE`** takes its node out of the list. -/
theorem Represents.remove {h : Links α} (represents : Represents h (front ++ (p, v) :: back)) :
    ∃ h', h.remove p = some h' ∧ Represents h' (front ++ back) := by
  obtain ⟨first, before, node, behind⟩ := represents.split
  obtain ⟨⟨notFront, notBack⟩, distinct⟩ := distinct_split represents.distinct
  have parts := distinct
  rw [List.map_append, List.nodup_append'] at parts
  obtain ⟨distinctFront, distinctBack, disjoint⟩ := parts
  obtain ⟨h₁, stored, first₁, behind₁, others₁⟩ := linked_storePrev behind distinctBack (lastSlot .head front)
  have before₁ : Linked h₁.nodes .head front (some p) :=
    (linked_congr fun q member => others₁ q (disjoint member)).mpr before
  obtain ⟨h₂, stored', first₂, before₂, others₂⟩ :=
    linked_store (first₁.trans first) before₁ distinctFront (firstOf back none)
  have behind₂ : Linked h₂.nodes (lastSlot .head front) back none :=
    (linked_congr fun q member => others₂ q fun inFront => disjoint inFront member).mpr behind₁
  refine ⟨h₂.setNode p none, ?_, ?_, linked_append.mpr ⟨?_, ?_⟩, distinct⟩
  · simp only [Links.remove, node, stored, Option.bind_some, stored', Option.map_some]
  · rw [firstOf_append]
    exact first₂
  · exact (linked_congr fun q member => Function.update_of_ne (ne_of_mem_of_not_mem member notFront) _ _).mpr before₂
  · exact (linked_congr fun q member => Function.update_of_ne (ne_of_mem_of_not_mem member notBack) _ _).mpr behind₂

/-- **`LIST_INSERT_HEAD`** puts its node in front. -/
theorem Represents.insertHead {h : Links α} (represents : Represents h xs) (new : p ∉ xs.map Prod.fst) (v : α) :
    ∃ h', h.insertHead p v = some h' ∧ Represents h' ((p, v) :: xs) := by
  obtain ⟨first, linked, distinct⟩ := represents
  have linked₁ : Linked (h.setNode p (some ⟨v, h.first, .head⟩)).nodes .head xs none :=
    (linked_congr fun q member => Function.update_of_ne (ne_of_mem_of_not_mem member new) _ _).mpr linked
  obtain ⟨h₂, stored, -, linked₂, others₂⟩ := linked_storePrev linked₁ distinct (.next p)
  refine ⟨{ h₂ with first := some p }, ?_, rfl, ⟨?_, linked₂⟩, List.nodup_cons.mpr ⟨new, distinct⟩⟩
  · rw [← first] at stored
    simp only [Links.insertHead, stored, Option.map_some]
  · show h₂.nodes p = _
    rw [others₂ p new, ← first]
    exact Function.update_self _ _ _

/-- Every list is represented, with the nodes numbered from the last one on. -/
theorem exists_represents (values : List α) : ∃ (h : Links α) (xs : List (Nat × α)), Represents h xs ∧
    xs.map Prod.snd = values ∧ ∀ p ∈ xs.map Prod.fst, p < values.length := by
  induction values with
  | nil => exact ⟨⟨none, fun _ => none⟩, [], ⟨rfl, trivial, List.nodup_nil⟩, rfl, nofun⟩
  | cons v values ih =>
    obtain ⟨h, xs, represents, rfl, below⟩ := ih
    have new : (xs.map Prod.snd).length ∉ xs.map Prod.fst := fun member => Nat.lt_irrefl _ (below _ member)
    obtain ⟨h', -, represents'⟩ := represents.insertHead new v
    refine ⟨h', _, represents', rfl, List.forall_mem_cons.mpr ⟨Nat.lt_succ_self _, fun p member => ?_⟩⟩
    exact Nat.lt_succ_of_lt (below p member)

/-! ## Safe traversal -/

/-- What an edit makes of an element. -/
def edited (f : α → Option α) (x : Nat × α) : Option (Nat × α) := (f x.2).map fun w => (x.1, w)

theorem Represents.edit {h : Links α} (represents : Represents h (front ++ (p, v) :: back)) (f : α → Option α) :
    ∃ h', h.edit f p = some h' ∧ Represents h' (front ++ (edited f (p, v)).toList ++ back) := by
  simp only [Links.edit, represents.node, edited]
  cases f v with
  | none =>
    obtain ⟨h', removed, rest⟩ := represents.remove
    exact ⟨h', removed, by simpa using rest⟩
  | some w => exact ⟨_, rfl, by simpa using represents.setValue w⟩

/-- **The rule for a safe traversal**: what the edit of the node at hand keeps, the loop keeps, from a node on
with the nodes in front of it done. -/
theorem foreachSafe_rule {Holds : Links α → List (Nat × α) → Prop} {f : α → Option α}
    (represents : ∀ {h xs}, Holds h xs → Represents h xs)
    (edit : ∀ {h front p v back}, Holds h (front ++ (p, v) :: back) →
      ∃ h', h.edit f p = some h' ∧ Holds h' (front ++ (edited f (p, v)).toList ++ back))
    {h : Links α} {fuel : Nat} (holds : Holds h (front ++ back)) (enough : back.length ≤ fuel) :
    ∃ h', h.foreachSafe (Links.edit f) fuel (firstOf back none) = some h' ∧
      Holds h' (front ++ back.filterMap (edited f)) := by
  induction back generalizing h front fuel with
  | nil => exact ⟨h, by cases fuel <;> rfl, holds⟩
  | cons x back ih =>
    obtain ⟨p, v⟩ := x
    obtain ⟨fuel, rfl⟩ : ∃ k, fuel = k + 1 := ⟨fuel - 1, by rw [List.length_cons] at enough; omega⟩
    obtain ⟨h₁, ran, holds₁⟩ := edit holds
    obtain ⟨h₂, traversed, holds₂⟩ := ih holds₁ (Nat.le_of_succ_le_succ enough)
    refine ⟨h₂, ?_, ?_⟩
    · have start : firstOf ((p, v) :: back) none = some p := rfl
      rw [start, Links.foreachSafe, (represents holds).node]
      simp only [ran, Option.bind_some, traversed]
    · rw [List.filterMap_cons]
      cases gone : edited f (p, v) with
      | none =>
        rw [gone] at holds₂
        simpa using holds₂
      | some y =>
        rw [gone] at holds₂
        simpa using holds₂

/-- From a node on, with the nodes in front of it done. -/
theorem Represents.foreachSafe {h : Links α} {fuel : Nat} (represents : Represents h (front ++ back))
    (enough : back.length ≤ fuel) (f : α → Option α) :
    ∃ h', h.foreachSafe (Links.edit f) fuel (firstOf back none) = some h' ∧
      Represents h' (front ++ back.filterMap (edited f)) :=
  foreachSafe_rule id (fun represents => represents.edit f) represents enough

/-- **A safe traversal edits every element once**, whatever it removes on its way. -/
theorem Represents.traverse {h : Links α} {fuel : Nat} (represents : Represents h xs) (enough : xs.length ≤ fuel)
    (f : α → Option α) : ∃ h', h.foreachSafe (Links.edit f) fuel h.first = some h' ∧
      Represents h' (xs.filterMap (edited f)) := by
  rw [represents.first]
  exact @Represents.foreachSafe _ [] xs h fuel represents enough f

/-! ## Searching -/

/-- A search yields the first node that passes the test. -/
theorem Represents.findFrom {h : Links α} {fuel : Nat} (represents : Represents h (front ++ back))
    (enough : back.length ≤ fuel) (test : α → Bool) :
    h.find test fuel (firstOf back none) = some ((back.find? fun x => test x.2).map Prod.fst) := by
  induction back generalizing front fuel with
  | nil => cases fuel <;> rfl
  | cons x back ih =>
    obtain ⟨p, v⟩ := x
    obtain ⟨fuel, rfl⟩ : ∃ k, fuel = k + 1 := ⟨fuel - 1, by rw [List.length_cons] at enough; omega⟩
    have start : firstOf ((p, v) :: back) none = some p := rfl
    rw [start, Links.find, represents.node, List.find?_cons]
    dsimp only
    cases test v with
    | true => rfl
    | false =>
      refine @ih (front ++ [(p, v)]) fuel ?_ (Nat.le_of_succ_le_succ enough)
      rwa [List.append_assoc]

theorem Represents.find {h : Links α} {fuel : Nat} (represents : Represents h xs) (enough : xs.length ≤ fuel)
    (test : α → Bool) : h.find test fuel h.first = some ((xs.find? fun x => test x.2).map Prod.fst) := by
  rw [represents.first]
  exact @Represents.findFrom _ [] xs h fuel represents enough test

/-- A search on the nodes and one on the values both fail, or both find the same element. -/
theorem Represents.find_cases {h : Links α} {fuel : Nat} (represents : Represents h xs) (enough : xs.length ≤ fuel)
    (test : α → Bool) :
    (h.find test fuel h.first = some none ∧ (xs.map Prod.snd).findFinIdx? test = none) ∨
    ∃ front p v back i, xs = front ++ (p, v) :: back ∧ h.find test fuel h.first = some (some p) ∧
      (xs.map Prod.snd).findFinIdx? test = some i ∧ i.val = front.length ∧ (xs.map Prod.snd).get i = v := by
  have found := represents.find enough test
  cases first : xs.find? fun x => test x.2 with
  | none =>
    rw [first] at found
    refine Or.inl ⟨found, findFin_none.mpr (List.forall_mem_map.mpr fun x member => ?_)⟩
    exact Bool.eq_false_iff.mpr (List.find?_eq_none.mp first x member)
  | some x =>
    obtain ⟨p, v⟩ := x
    rw [first] at found
    obtain ⟨holds, front, back, rfl, before⟩ := List.find?_eq_some_iff_append.mp first
    obtain ⟨i, searched, index, value⟩ := @findFin_of_split _ test (front.map Prod.snd) (back.map Prod.snd) v holds
      (List.forall_mem_map.mpr fun x member => by simpa using before x member)
    rw [List.map_append, List.map_cons]
    exact Or.inr ⟨front, p, v, back, i, rfl, found, searched, index.trans (List.length_map _), value⟩

theorem Represents.walkFrom {h : Links α} {fuel : Nat} (represents : Represents h (front ++ back))
    (enough : back.length ≤ fuel) : h.walk fuel (firstOf back none) = some (back.map Prod.snd) := by
  induction back generalizing front fuel with
  | nil => cases fuel <;> rfl
  | cons x back ih =>
    obtain ⟨p, v⟩ := x
    obtain ⟨fuel, rfl⟩ : ∃ k, fuel = k + 1 := ⟨fuel - 1, by rw [List.length_cons] at enough; omega⟩
    have start : firstOf ((p, v) :: back) none = some p := rfl
    have rest := @ih (front ++ [(p, v)]) fuel (by rwa [List.append_assoc]) (Nat.le_of_succ_le_succ enough)
    rw [start, Links.walk, represents.node]
    simp only [rest, Option.map_some, List.map_cons]

/-- **A walk meets the values in list order.** -/
theorem Represents.walk {h : Links α} {fuel : Nat} (represents : Represents h xs) (enough : xs.length ≤ fuel) :
    h.walk fuel h.first = some (xs.map Prod.snd) := by
  rw [represents.first]
  exact @Represents.walkFrom _ [] xs h fuel represents enough

/-! ## Loops with reads of their own -/

theorem Represents.read {β : Type} {h : Links α} {x : Nat × α} (represents : Represents h xs) (listed : x ∈ xs)
    (field : α → β) : h.read (some x.1) field = some (field x.2) := by
  obtain ⟨front, back, rfl⟩ := List.append_of_mem listed
  rw [Links.read, Option.bind_some, represents.node]
  rfl

theorem Represents.foldFrom {σ : Type} {h : Links α} {fuel : Nat} (represents : Represents h (front ++ back))
    (enough : back.length ≤ fuel) (body : σ → Nat → Option σ) (s : σ) :
    h.foldM body fuel (firstOf back none) s = (back.map Prod.fst).foldlM body s := by
  induction back generalizing front fuel s with
  | nil => cases fuel <;> rfl
  | cons x back ih =>
    obtain ⟨p, v⟩ := x
    obtain ⟨fuel, rfl⟩ : ∃ k, fuel = k + 1 := ⟨fuel - 1, by rw [List.length_cons] at enough; omega⟩
    have start : firstOf ((p, v) :: back) none = some p := rfl
    have rest := @ih (front ++ [(p, v)]) fuel (by rwa [List.append_assoc]) (Nat.le_of_succ_le_succ enough)
    rw [start, Links.foldM, represents.node, List.map_cons, List.foldlM_cons]
    exact congrArg (body s p).bind (funext rest)

/-- A loop over the nodes is a loop over their addresses. -/
theorem Represents.foldM {σ : Type} {h : Links α} {fuel : Nat} (represents : Represents h xs)
    (enough : xs.length ≤ fuel) (body : σ → Nat → Option σ) (s : σ) :
    h.foldM body fuel h.first s = (xs.map Prod.fst).foldlM body s := by
  rw [represents.first]
  exact @Represents.foldFrom _ [] xs _ h fuel represents enough body s

theorem Represents.findMFrom {h : Links α} {fuel : Nat} (represents : Represents h (front ++ back))
    (enough : back.length ≤ fuel) (test : Nat → Option Bool) :
    h.findM test fuel (firstOf back none) = (back.map Prod.fst).findM? test := by
  induction back generalizing front fuel with
  | nil => cases fuel <;> rfl
  | cons x back ih =>
    obtain ⟨p, v⟩ := x
    obtain ⟨fuel, rfl⟩ : ∃ k, fuel = k + 1 := ⟨fuel - 1, by rw [List.length_cons] at enough; omega⟩
    have start : firstOf ((p, v) :: back) none = some p := rfl
    have rest := @ih (front ++ [(p, v)]) fuel (by rwa [List.append_assoc]) (Nat.le_of_succ_le_succ enough)
    rw [start, Links.findM, represents.node, List.map_cons, List.findM?]
    simp only [rest, Option.bind_eq_bind]
    congr 1
    funext passes
    cases passes <;> rfl

theorem Represents.findM {h : Links α} {fuel : Nat} (represents : Represents h xs) (enough : xs.length ≤ fuel)
    (test : Nat → Option Bool) : h.findM test fuel h.first = (xs.map Prod.fst).findM? test := by
  rw [represents.first]
  exact @Represents.findMFrom _ [] xs h fuel represents enough test

/-! ## The nodes there are -/

/-- The nodes are those of the list, and no others: none is lost. -/
structure Lists (h : Links α) (xs : List (Nat × α)) : Prop extends Represents h xs where
  only : ∀ p, p ∉ xs.map Prod.fst → h.nodes p = none

section Absent
variable {h h' : Links α} {q : Nat} {value : Option Nat}

theorem setNode_absent {n : Option (Node α)} : (h.setNode p n).nodes q = none ↔
    (if q = p then n = none else h.nodes q = none) := by
  simp only [Links.setNode, Function.update_apply]
  split <;> rfl

/-- Writing into a node neither makes nor frees one. -/
theorem setNode_absent_some {n m : Node α} (there : h.nodes p = some m) :
    (h.setNode p (some n)).nodes q = none ↔ h.nodes q = none := by
  rw [setNode_absent]
  split
  · rename_i same
    simp [same, there]
  · rfl

theorem store_absent (stored : h.store slot value = some h') : h'.nodes q = none ↔ h.nodes q = none := by
  cases slot with
  | head =>
    cases stored
    exact Iff.rfl
  | next r =>
    unfold Links.store at stored
    dsimp only at stored
    split at stored
    · cases stored
    · rename_i n there
      cases stored
      exact setNode_absent_some there

theorem storePrev_absent (stored : h.storePrev value slot = some h') : h'.nodes q = none ↔ h.nodes q = none := by
  cases value with
  | none =>
    cases stored
    exact Iff.rfl
  | some r =>
    unfold Links.storePrev at stored
    dsimp only at stored
    split at stored
    · cases stored
    · rename_i n there
      cases stored
      exact setNode_absent_some there

/-- Inserting makes one node. -/
theorem insertHead_absent (inserted : h.insertHead p v = some h') : h'.nodes q = none ↔ q ≠ p ∧ h.nodes q = none := by
  obtain ⟨h₁, stored, rfl⟩ := Option.map_eq_some_iff.mp inserted
  show h₁.nodes q = none ↔ _
  rw [storePrev_absent stored, setNode_absent]
  split <;> simp_all

/-- Removing frees one. -/
theorem remove_absent (removed : h.remove p = some h') : h'.nodes q = none ↔ q = p ∨ h.nodes q = none := by
  unfold Links.remove at removed
  split at removed
  · cases removed
  · obtain ⟨h₂, stored, rfl⟩ := Option.map_eq_some_iff.mp removed
    obtain ⟨h₁, stored₁, stored₂⟩ := Option.bind_eq_some_iff.mp stored
    rw [setNode_absent, store_absent stored₂, storePrev_absent stored₁]
    split <;> simp_all

end Absent

section Lists
variable {h : Links α}

theorem Lists.empty : Lists (Links.empty : Links α) [] where
  first := rfl
  linked := trivial
  distinct := List.nodup_nil
  only := fun _ _ => rfl

/-- A free node is not in the list, and a node that is not in the list is free. -/
theorem Lists.free_iff (lists : Lists h xs) : h.nodes p = none ↔ p ∉ xs.map Prod.fst := by
  refine ⟨fun free member => ?_, lists.only p⟩
  obtain ⟨⟨q, v⟩, listed, rfl⟩ := List.mem_map.mp member
  obtain ⟨front, back, rfl⟩ := List.append_of_mem listed
  have there := lists.toRepresents.node
  rw [free] at there
  cases there

theorem Lists.insertHead (lists : Lists h xs) (free : h.nodes p = none) (v : α) :
    ∃ h', h.insertHead p v = some h' ∧ Lists h' ((p, v) :: xs) := by
  obtain ⟨h', inserted, represents⟩ := lists.toRepresents.insertHead (lists.free_iff.mp free) v
  refine ⟨h', inserted, represents, fun q outside => ?_⟩
  rw [List.map_cons, List.mem_cons, not_or] at outside
  exact (insertHead_absent inserted).mpr ⟨outside.1, lists.only q outside.2⟩

theorem Lists.remove (lists : Lists h (front ++ (p, v) :: back)) :
    ∃ h', h.remove p = some h' ∧ Lists h' (front ++ back) := by
  obtain ⟨h', removed, represents⟩ := lists.toRepresents.remove
  refine ⟨h', removed, represents, fun q outside => ?_⟩
  by_cases same : q = p
  · exact (remove_absent removed).mpr (Or.inl same)
  · refine (remove_absent removed).mpr (Or.inr (lists.only q fun member => outside ?_))
    simpa [same] using member

/-- A write through a pointer into the list. -/
theorem Lists.edit (lists : Lists h (front ++ (p, v) :: back)) (f : α → α) :
    ∃ h', h.edit (fun v => some (f v)) p = some h' ∧ Lists h' (front ++ (p, f v) :: back) := by
  have there := lists.toRepresents.node
  refine ⟨_, by simp only [Links.edit, there], lists.toRepresents.setValue (f v), fun q outside => ?_⟩
  refine (setNode_absent_some there).mpr (lists.only q fun member => outside ?_)
  rw [List.map_append, List.map_cons] at member ⊢
  exact member

/-- An edit that may remove its node. -/
theorem Lists.editOrRemove (lists : Lists h (front ++ (p, v) :: back)) (f : α → Option α) :
    ∃ h', h.edit f p = some h' ∧ Lists h' (front ++ (edited f (p, v)).toList ++ back) := by
  simp only [Links.edit, lists.toRepresents.node, edited]
  cases f v with
  | none =>
    obtain ⟨h', removed, rest⟩ := lists.remove
    exact ⟨h', removed, by simpa using rest⟩
  | some w =>
    obtain ⟨h', written, rest⟩ := lists.edit fun _ => w
    rw [Links.edit, lists.toRepresents.node] at written
    exact ⟨h', written, by simpa using rest⟩

/-- **A safe traversal** frees the nodes it removes, and no others. -/
theorem Lists.traverse {fuel : Nat} (lists : Lists h xs) (enough : xs.length ≤ fuel) (f : α → Option α) :
    ∃ h', h.foreachSafe (Links.edit f) fuel h.first = some h' ∧ Lists h' (xs.filterMap (edited f)) := by
  rw [lists.first]
  exact @foreachSafe_rule _ [] xs Lists f Lists.toRepresents (fun lists => lists.editOrRemove f) h fuel lists enough

end Lists

end Represents

end Lib
