import Mathlib.Data.List.Forall2
import Mathlib.Data.List.Induction

/-!
# Updates that overwrite

Updates of several kinds on one state: an update undoes the earlier ones of its kind and leaves alone
what those of the other kinds set. Of a list of updates the last of each kind counts.
-/

namespace Lib
set_option autoImplicit false

variable {X K V : Type} {kind : X → K} {apply : X → V → V} {shown : K → V → X}

/-- The laws of updates that overwrite. -/
structure Overwriting (kind : X → K) (apply : X → V → V) : Prop where
  overwrites : ∀ x y v, kind x = kind y → apply x (apply y v) = apply x v
  commute : ∀ x y v, kind x ≠ kind y → apply x (apply y v) = apply y (apply x v)
  /-- What one update changes another one does not hide. -/
  apart : ∀ x y v, kind x ≠ kind y → apply y (apply x v) = apply y v → apply x v = v

/-- The state shows, for each kind, the update it looks like; that varies with the state. -/
structure Telling (kind : X → K) (apply : X → V → V) (shown : K → V → X) : Prop where
  shown_apply : ∀ x v, shown (kind x) (apply x v) = x
  varies : ∀ k, ∃ v w, shown k v ≠ shown k w

/-- The updates of a list, first to last. -/
def applyAll (apply : X → V → V) (v : V) (updates : List X) : V := updates.foldl (fun v x => apply x v) v

/-- The state is as the update leaves it. -/
def InForce (apply : X → V → V) (x : X) (v : V) : Prop := apply x v = v

/-- The last update of its kind. -/
def Latest (kind : X → K) (x : X) (updates : List X) : Prop :=
  ∃ front back, updates = front ++ x :: back ∧ ∀ y ∈ back, kind y ≠ kind x

/-- Of a kind they share two lists have the same last update. -/
def Agree (kind : X → K) (updates others : List X) : Prop :=
  ∀ x y, Latest kind x updates → Latest kind y others → kind x = kind y → x = y

section Updates
variable {x : X} {v : V} {updates inserted behind : List X}

@[simp] theorem applyAll_nil : applyAll apply v [] = v := rfl

@[simp] theorem applyAll_cons : applyAll apply v (x :: updates) = applyAll apply (apply x v) updates := rfl

theorem applyAll_append : applyAll apply v (inserted ++ behind) = applyAll apply (applyAll apply v inserted) behind :=
  List.foldl_append

/-- What none of the updates touches is kept. -/
theorem applyAll_keeps {β : Type} {field : V → β} (keeps : ∀ x ∈ updates, ∀ v, field (apply x v) = field v) :
    field (applyAll apply v updates) = field v := by
  induction updates generalizing v with
  | nil => rfl
  | cons x updates ih =>
    obtain ⟨first, others⟩ := List.forall_mem_cons.mp keeps
    rw [applyAll_cons, ih others, first]

theorem latest_concat : Latest kind x (updates ++ [x]) := ⟨updates, [], rfl, nofun⟩

theorem Latest.concat {y : X} (latest : Latest kind x updates) (other : kind y ≠ kind x) :
    Latest kind x (updates ++ [y]) := by
  obtain ⟨front, back, rfl, last⟩ := latest
  refine ⟨front, back ++ [y], by simp, ?_⟩
  rw [List.forall_mem_append, List.forall_mem_singleton]
  exact ⟨last, other⟩

/-- A kind that occurs has a last update. -/
theorem exists_latest {k : K} (occurs : ∃ y ∈ updates, kind y = k) :
    ∃ x, Latest kind x updates ∧ kind x = k := by
  induction updates using List.reverseRecOn with
  | nil => obtain ⟨y, member, -⟩ := occurs; cases member
  | append_singleton updates y ih =>
    by_cases same : kind y = k
    · exact ⟨y, latest_concat, same⟩
    · have earlier : ∃ z ∈ updates, kind z = k := by
        obtain ⟨z, member, kindZ⟩ := occurs
        rcases List.mem_append.mp member with inFront | isLast
        · exact ⟨z, inFront, kindZ⟩
        · exact (same (List.mem_singleton.mp isLast ▸ kindZ)).elim
      obtain ⟨x, latest, kindX⟩ := ih earlier
      exact ⟨x, latest.concat (kindX ▸ same), kindX⟩

variable (laws : Overwriting kind apply)
include laws

/-- An update goes past those of other kinds. -/
theorem applyAll_commute (apart : ∀ y ∈ updates, kind y ≠ kind x) :
    applyAll apply (apply x v) updates = apply x (applyAll apply v updates) := by
  induction updates generalizing v with
  | nil => rfl
  | cons y updates ih =>
    obtain ⟨first, others⟩ := List.forall_mem_cons.mp apart
    rw [applyAll_cons, applyAll_cons, laws.commute y x v first, ih others]

/-- A later update of the same kind undoes it. -/
theorem applyAll_over (again : ∃ y ∈ updates, kind y = kind x) :
    applyAll apply (apply x v) updates = applyAll apply v updates := by
  induction updates generalizing v with
  | nil => obtain ⟨y, member, -⟩ := again; cases member
  | cons y updates ih =>
    rw [applyAll_cons, applyAll_cons]
    by_cases same : kind y = kind x
    · rw [laws.overwrites y x v same]
    · have later : ∃ z ∈ updates, kind z = kind x := by
        obtain ⟨z, member, kindZ⟩ := again
        rcases List.mem_cons.mp member with rfl | member
        · exact (same kindZ).elim
        · exact ⟨z, member, kindZ⟩
      rw [laws.commute y x v same, ih later]

/-- What is not undone shows. -/
theorem inForce_of_applyAll (apart : ∀ y ∈ updates, kind y ≠ kind x)
    (same : applyAll apply (apply x v) updates = applyAll apply v updates) : InForce apply x v := by
  induction updates generalizing v with
  | nil => exact same
  | cons y updates ih =>
    obtain ⟨first, others⟩ := List.forall_mem_cons.mp apart
    rw [applyAll_cons, applyAll_cons, laws.commute y x v first] at same
    have later : apply x (apply y v) = apply y v := ih others same
    rw [← laws.commute y x v first] at later
    exact laws.apart x y v (Ne.symm first) later

/-- **The last update of a kind is in force at the end.** -/
theorem Latest.inForce (latest : Latest kind x updates) : InForce apply x (applyAll apply v updates) := by
  obtain ⟨front, back, rfl, last⟩ := latest
  rw [applyAll_append, applyAll_cons, applyAll_commute laws last]
  exact laws.overwrites x x _ rfl

/-- **When updates in the middle do not show**: each of them that is the last of its kind is undone behind
them or was in force in front of them. -/
theorem applyAll_insert_iff : applyAll apply (applyAll apply v inserted) behind = applyAll apply v behind ↔
    ∀ x, Latest kind x inserted → (∃ y ∈ behind, kind y = kind x) ∨ InForce apply x v := by
  constructor
  · intro same x latest
    by_cases again : ∃ y ∈ behind, kind y = kind x
    · exact Or.inl again
    · have apart : ∀ y ∈ behind, kind y ≠ kind x := fun y member sameKind => again ⟨y, member, sameKind⟩
      refine Or.inr (inForce_of_applyAll laws apart ?_)
      have last : Latest kind x (inserted ++ behind) := by
        obtain ⟨front, back, rfl, last⟩ := latest
        refine ⟨front, back ++ behind, by simp, ?_⟩
        exact List.forall_mem_append.mpr ⟨last, apart⟩
      have force : InForce apply x (applyAll apply v (inserted ++ behind)) := last.inForce laws
      rw [applyAll_append, same] at force
      rw [applyAll_commute laws apart]
      exact force
  · intro harmless
    induction inserted using List.reverseRecOn generalizing behind with
    | nil => rfl
    | append_singleton inserted x ih =>
      -- The last update counts as one of those behind.
      have earlier : applyAll apply (applyAll apply v inserted) (x :: behind) = applyAll apply v (x :: behind) := by
        apply ih
        intro z latest
        by_cases same : kind x = kind z
        · exact Or.inl ⟨x, List.mem_cons_self, same⟩
        · refine (harmless z (latest.concat same)).imp_left ?_
          rintro ⟨y, member, kindY⟩
          exact ⟨y, List.mem_cons_of_mem x member, kindY⟩
      rw [applyAll_append, applyAll_cons, applyAll_nil, ← applyAll_cons, earlier, applyAll_cons]
      rcases harmless x latest_concat with again | force
      · exact applyAll_over laws again
      · rw [show apply x v = v from force]

end Updates

/-! ## Lists of updates with one effect -/

section Same
variable {x : X} {updates others : List X}

theorem Latest.mem (latest : Latest kind x updates) : x ∈ updates := by
  obtain ⟨front, back, rfl, -⟩ := latest
  exact List.mem_append_right front List.mem_cons_self

/-- The latest update of two lists is one of the second, or one of the first of a kind the second lacks. -/
theorem latest_append_iff : Latest kind x (updates ++ others) ↔
    Latest kind x others ∨ Latest kind x updates ∧ ∀ y ∈ others, kind y ≠ kind x := by
  constructor
  · rintro ⟨front, back, split, last⟩
    rcases List.append_eq_append_iff.mp split with ⟨more, rfl, rfl⟩ | ⟨more, rfl, tail⟩
    · exact Or.inl ⟨more, back, rfl, last⟩
    · cases more with
      | nil => exact Or.inl ⟨[], back, tail.symm, last⟩
      | cons y more =>
        obtain ⟨rfl, rfl⟩ := List.cons.inj tail
        obtain ⟨lastMore, absent⟩ := List.forall_mem_append.mp last
        exact Or.inr ⟨⟨front, more, rfl, lastMore⟩, absent⟩
  · rintro (⟨front, back, rfl, last⟩ | ⟨⟨front, back, rfl, last⟩, absent⟩)
    · exact ⟨updates ++ front, back, by simp, last⟩
    · exact ⟨front, back ++ others, by simp, List.forall_mem_append.mpr ⟨last, absent⟩⟩

/-- Corresponding updates are of one kind. -/
theorem map_kind_of_forall₂ {R : X → X → Prop} (kinds : ∀ x y, R x y → kind x = kind y)
    (alike : List.Forall₂ R updates others) : updates.map kind = others.map kind := by
  induction alike with
  | nil => rfl
  | cons related _ ih => rw [List.map_cons, List.map_cons, kinds _ _ related, ih]

/-- The latest update corresponds to the latest of its kind. -/
theorem Latest.forall₂ {R : X → X → Prop} (kinds : ∀ x y, R x y → kind x = kind y)
    (alike : List.Forall₂ R updates others) (latest : Latest kind x updates) :
    ∃ y, R x y ∧ Latest kind y others := by
  obtain ⟨front, back, rfl, last⟩ := latest
  have behind := List.forall₂_drop front.length alike
  rw [List.drop_left] at behind
  obtain ⟨y, back', related, alikeBack, tail⟩ := List.forall₂_cons_left_iff.mp behind
  refine ⟨y, related, others.take front.length, back', ?_, ?_⟩
  · rw [← tail, List.take_append_drop]
  · intro z member same
    have kindZ : kind z ∈ back.map kind := by
      rw [map_kind_of_forall₂ kinds alikeBack]
      exact List.mem_map_of_mem member
    obtain ⟨w, memberW, sameW⟩ := List.mem_map.mp kindZ
    exact last w memberW (by rw [sameW, same, kinds x y related])

theorem Agree.symm (agree : Agree kind updates others) : Agree kind others updates :=
  fun x y latest latest' kinds => (agree y x latest' latest kinds.symm).symm

theorem latest_append_of_agree (agree : Agree kind updates others) :
    Latest kind x (updates ++ others) ↔ Latest kind x updates ∨ Latest kind x others := by
  rw [latest_append_iff]
  constructor
  · rintro (latest | ⟨latest, -⟩)
    · exact Or.inr latest
    · exact Or.inl latest
  · rintro (latest | latest)
    · by_cases shared : ∃ y ∈ others, kind y = kind x
      · obtain ⟨y, latest', kinds⟩ := exists_latest shared
        exact Or.inl (agree x y latest latest' kinds.symm ▸ latest')
      · exact Or.inr ⟨latest, fun y member kinds => shared ⟨y, member, kinds⟩⟩
    · exact Or.inl latest

variable (laws : Overwriting kind apply)
include laws

/-- What has the latest updates again behind it does not show. -/
theorem applyAll_behind (again : ∀ x, Latest kind x updates → ∃ y ∈ others, kind y = kind x) (v : V) :
    applyAll apply (applyAll apply v updates) others = applyAll apply v others :=
  (applyAll_insert_iff laws).mpr fun x latest => Or.inl (again x latest)

/-- What repeats the latest updates does not show either. -/
theorem applyAll_again (known : ∀ x, Latest kind x others → Latest kind x updates) (v : V) :
    applyAll apply (applyAll apply v updates) others = applyAll apply v updates := by
  have inserted : ∀ x, Latest kind x others →
      (∃ y ∈ ([] : List X), kind y = kind x) ∨ InForce apply x (applyAll apply v updates) :=
    fun x latest => Or.inr ((known x latest).inForce laws)
  have unseen := (applyAll_insert_iff laws).mpr inserted
  exact unseen

omit laws in
theorem Telling.shown_of_inForce (telling : Telling kind apply shown) {v : V} (force : InForce apply x v) :
    shown (kind x) v = x := by
  rw [← show apply x v = v from force]
  exact telling.shown_apply x v

omit laws in
/-- Each update changes some state. -/
theorem Telling.effective (telling : Telling kind apply shown) (x : X) : ∃ v, ¬ InForce apply x v := by
  obtain ⟨v, w, differ⟩ := telling.varies (kind x)
  by_contra never
  have forced : ∀ v, InForce apply x v := fun v => by_contra fun changed => never ⟨v, changed⟩
  exact differ ((telling.shown_of_inForce (forced v)).trans (telling.shown_of_inForce (forced w)).symm)

/-- What always is in force at the end is the latest update of its kind. -/
theorem latest_of_inForce (telling : Telling kind apply shown)
    (force : ∀ v, InForce apply x (applyAll apply v updates)) : Latest kind x updates := by
  by_cases occurs : ∃ y ∈ updates, kind y = kind x
  · obtain ⟨y, latest, same⟩ := exists_latest occurs
    obtain ⟨v, -⟩ := telling.effective x
    have showsX := telling.shown_of_inForce (force v)
    have showsY := telling.shown_of_inForce (latest.inForce laws (v := v))
    rw [same, showsX] at showsY
    exact showsY ▸ latest
  · -- Nothing of its kind occurs, so it was in force before, whatever the state.
    have apart : ∀ y ∈ updates, kind y ≠ kind x := fun y member same => occurs ⟨y, member, same⟩
    obtain ⟨v, changed⟩ := telling.effective x
    have earlier : InForce apply x v := by
      refine inForce_of_applyAll laws apart ?_
      rw [applyAll_commute laws apart]
      exact force v
    exact absurd earlier changed

/-- **Two lists of updates have one effect on every state when the last of each kind is the same.** -/
theorem applyAll_eq_iff (telling : Telling kind apply shown) :
    (∀ v, applyAll apply v updates = applyAll apply v others) ↔
      ∀ x, Latest kind x updates ↔ Latest kind x others := by
  constructor
  · intro same x
    constructor
    · intro latest
      refine latest_of_inForce laws telling fun v => ?_
      rw [← same v]
      exact latest.inForce laws
    · intro latest
      refine latest_of_inForce laws telling fun v => ?_
      rw [same v]
      exact latest.inForce laws
  · intro same v
    have again : ∀ x, Latest kind x updates → ∃ y ∈ others, kind y = kind x :=
      fun x latest => ⟨x, ((same x).mp latest).mem, rfl⟩
    calc applyAll apply v updates
        = applyAll apply (applyAll apply v updates) others :=
          (applyAll_again laws (fun x latest => (same x).mpr latest) v).symm
      _ = applyAll apply v others := applyAll_behind laws again v

omit laws in
theorem occurs_of_map {k : K} (kinds : updates.map kind = others.map kind) (occurs : ∃ y ∈ updates, kind y = k) :
    ∃ y ∈ others, kind y = k := by
  rw [← List.mem_map, ← kinds]
  exact List.mem_map.mpr occurs

/-- **When updates in the middle do not show though they change what is behind them**, but not its kinds: what
is behind sets the same in the end, and what it does not undo was in force in front. -/
theorem applyAll_replace_iff (telling : Telling kind apply shown) {v : V} {inserted behind behind' : List X}
    (kinds : behind.map kind = behind'.map kind) :
    applyAll apply (applyAll apply v inserted) behind = applyAll apply v behind' ↔
      (∀ x, Latest kind x inserted → (∃ y ∈ behind, kind y = kind x) ∨ InForce apply x v) ∧
        ∀ x, Latest kind x behind ↔ Latest kind x behind' := by
  constructor
  · intro same
    -- Both lists have a last update of a kind, and the state at the end tells it.
    have told {x y : X} (latest : Latest kind x behind) (latest' : Latest kind y behind') (kindY : kind y = kind x) :
        x = y := by
      have showsX := telling.shown_of_inForce (latest.inForce laws (v := applyAll apply v inserted))
      have showsY := telling.shown_of_inForce (latest'.inForce laws (v := v))
      rw [← same, kindY, showsX] at showsY
      exact showsY
    have latest_iff : ∀ x, Latest kind x behind ↔ Latest kind x behind' := by
      intro x
      constructor
      · intro latest
        obtain ⟨y, latest', kindY⟩ := exists_latest (occurs_of_map kinds ⟨x, latest.mem, rfl⟩)
        exact told latest latest' kindY ▸ latest'
      · intro latest'
        obtain ⟨y, latest, kindY⟩ := exists_latest (occurs_of_map kinds.symm ⟨x, latest'.mem, rfl⟩)
        exact told latest latest' kindY.symm ▸ latest
    refine ⟨(applyAll_insert_iff laws).mp ?_, latest_iff⟩
    rw [same]
    exact ((applyAll_eq_iff laws telling).mpr latest_iff v).symm
  · rintro ⟨harmless, latest_iff⟩
    rw [(applyAll_insert_iff laws).mpr harmless]
    exact (applyAll_eq_iff laws telling).mpr latest_iff v

/-- **Two lists can be swapped when they agree on the kinds they share.** -/
theorem applyAll_swap_iff (telling : Telling kind apply shown) :
    (∀ v, applyAll apply v (updates ++ others) = applyAll apply v (others ++ updates)) ↔ Agree kind updates others := by
  rw [applyAll_eq_iff laws telling]
  constructor
  · intro same x y latest latest' kinds
    have swapped : Latest kind x (updates ++ others) := (same x).mpr (latest_append_iff.mpr (Or.inl latest))
    rcases latest_append_iff.mp swapped with again | ⟨-, absent⟩
    · obtain ⟨v, -⟩ := telling.effective x
      have showsX := telling.shown_of_inForce (again.inForce laws (v := v))
      have showsY := telling.shown_of_inForce (latest'.inForce laws (v := v))
      rw [← kinds] at showsY
      exact showsX.symm.trans showsY
    · exact (absent y latest'.mem kinds.symm).elim
  · intro agree x
    rw [latest_append_of_agree agree, latest_append_of_agree agree.symm]
    exact or_comm

end Same

end Lib
