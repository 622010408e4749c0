import DhcpServer.TypeAgreement

/-!
# PADs in front of options

`get_dhcp_message_type` does not know `PAD`: it takes one for an option's code and the byte behind it
for the length. Two PADs are an empty option, so the scan crosses an even run of them. At the end of
an odd run it takes the code of the next option, or `END`, for a length.
-/

namespace DhcpServer
set_option autoImplicit false
open Lib

/-- `PAD`. -/
def OptionCode.pad : Byte := 0#8

def pads (k : Nat) : List Byte := List.replicate k OptionCode.pad

@[simp] theorem pads_length (k : Nat) : (pads k).length = k := List.length_replicate

/-- An option proper: neither `PAD` nor `END`. -/
def DhcpOption.Coded (opt : DhcpOption) : Prop := opt.id ≠ OptionCode.pad ∧ opt.id ≠ OptionCode.endMark

/-- Options, each with the number of PADs in front of it. -/
abbrev PaddedOptions := List (Nat × DhcpOption)

def paddedBytes (items : PaddedOptions) : List Byte := items.flatMap fun item => pads item.1 ++ item.2.bytes

/-- The options field: the cookie, the options with their PADs, and `last` PADs in front of `END`. -/
def paddedField (items : PaddedOptions) (last : Nat) : List Byte :=
  optionMagic ++ (paddedBytes items ++ (pads last ++ [OptionCode.endMark]))

theorem coded_options {items : PaddedOptions} (coded : ∀ item ∈ items, item.2.Coded) :
    ∀ opt ∈ items.map Prod.snd, opt.Coded :=
  List.forall_mem_map.mpr coded

theorem paddedBytes_cons (k : Nat) (opt : DhcpOption) (rest : PaddedOptions) :
    paddedBytes ((k, opt) :: rest) = pads k ++ opt.bytes ++ paddedBytes rest := by
  rw [paddedBytes, List.flatMap_cons, ← paddedBytes]

theorem paddedBytes_append (front back : PaddedOptions) :
    paddedBytes (front ++ back) = paddedBytes front ++ paddedBytes back :=
  List.flatMap_append

/-- `bs` lies at offset `i`, below `len`. -/
def LiesAt (m : Memory) (len i : Nat) (bs : List Byte) : Prop := i + bs.length ≤ len ∧ m.slice i bs.length = bs

section Lies
variable {m : Memory} {len i : Nat}

theorem LiesAt.split {front back : List Byte} (lies : LiesAt m len i (front ++ back)) :
    LiesAt m len i front ∧ LiesAt m len (i + front.length) back := by
  obtain ⟨inside, bytes⟩ := lies
  rw [List.length_append] at inside bytes
  rw [Memory.slice_append] at bytes
  obtain ⟨first, second⟩ := List.append_inj bytes (Memory.slice_length m i _)
  exact ⟨⟨by omega, first⟩, by omega, second⟩

theorem LiesAt.end_mark (lies : LiesAt m len i [OptionCode.endMark]) : i < len ∧ m i = OptionCode.endMark :=
  ⟨lies.1, List.head_eq_of_cons_eq lies.2⟩

theorem LiesAt.pad {k : Nat} (lies : LiesAt m len i (pads k)) {j : Nat} (inside : j < k) :
    m (i + j) = OptionCode.pad := by
  have bytes := lies.2
  rw [pads_length] at bytes
  exact Memory.slice_eq_zeros.mp bytes j inside

/-- The scan at an option: its type, or what the scan behind it returns. -/
theorem run_option {opt : DhcpOption} (coded : opt.Coded) (lies : LiesAt m len i opt.bytes) :
    (typeScanFrom len i).run m = if opt.typed then opt.data.headD 0#8
      else (typeScanFrom len (i + opt.bytes.length)).run m := by
  obtain ⟨inside, bytes⟩ := lies
  obtain ⟨rfl, number, id⟩ := optionAt_of_slice bytes
  rw [DhcpOption.bytes_length] at inside ⊢
  have within : i < len := by omega
  by_cases typed : typedAt m i
  · rw [if_pos (typed_optionAt.mpr typed), run_typeScanFrom_typed _ _ _ within typed, head_optionAt typed]
  · rw [if_neg (mt typed_optionAt.mp typed), run_typeScanFrom_skip _ _ _ within (id ▸ coded.2) typed, number,
      Nat.add_assoc]

/-- A PAD is stepped over with the byte behind it for a length. -/
theorem run_pad (within : i < len) (pad : m i = OptionCode.pad) :
    (typeScanFrom len i).run m = (typeScanFrom len (i + 2 + (m (i + 1)).toNat)).run m := by
  apply run_typeScanFrom_skip _ _ _ within
  · rw [pad]
    decide
  · intro typed
    exact absurd (pad.symm.trans typed.1) (by decide)

/-- The scan crosses PADs in pairs. -/
theorem run_pads {j : Nat} (lies : LiesAt m len i (pads (2 * j))) :
    (typeScanFrom len i).run m = (typeScanFrom len (i + 2 * j)).run m := by
  induction j generalizing i with
  | zero => rfl
  | succ j ih =>
    have inside := lies.1
    rw [pads_length] at inside
    have pair : pads (2 * (j + 1)) = pads 2 ++ pads (2 * j) := by
      rw [pads, pads, pads, List.replicate_append_replicate]
      congr 1
      omega
    rw [pair] at lies
    have later := ih lies.split.2
    rw [pads_length] at later
    have first : m i = OptionCode.pad := lies.split.1.pad (show 0 < 2 by decide)
    have second : m (i + 1) = OptionCode.pad := lies.split.1.pad (show 1 < 2 by decide)
    rw [run_pad (by omega) first, second]
    show (typeScanFrom len (i + 2)).run m = _
    rw [later]
    congr 2
    omega

/-- At the end of an odd run the next byte is taken for a length. -/
theorem run_pads_odd {k : Nat} (odd : k % 2 = 1) (lies : LiesAt m len i (pads k)) :
    (typeScanFrom len i).run m = (typeScanFrom len (i + k + 1 + (m (i + k)).toNat)).run m := by
  obtain ⟨j, rfl⟩ : ∃ j, k = 2 * j + 1 := ⟨k / 2, by omega⟩
  have inside := lies.1
  rw [pads_length] at inside
  have last := lies.pad (Nat.lt_succ_self (2 * j))
  have pairs : LiesAt m len i (pads (2 * j)) := by
    rw [pads, List.replicate_succ'] at lies
    exact lies.split.1
  rw [run_pads pairs, run_pad (by omega) last]
  rfl

/-- The scan at an option behind an even run. -/
theorem run_item {k : Nat} {opt : DhcpOption} (even : k % 2 = 0) (coded : opt.Coded)
    (lies : LiesAt m len i (pads k ++ opt.bytes)) :
    (typeScanFrom len i).run m = if opt.typed then opt.data.headD 0#8
      else (typeScanFrom len (i + (pads k ++ opt.bytes).length)).run m := by
  obtain ⟨j, rfl⟩ : ∃ j, k = 2 * j := ⟨k / 2, by omega⟩
  have behind := lies.split.2
  rw [pads_length] at behind
  rw [run_pads lies.split.1, run_option coded behind, List.length_append, pads_length, Nat.add_assoc]

/-- The scan at the end mark behind an even run. -/
theorem run_last {k : Nat} (even : k % 2 = 0) (lies : LiesAt m len i (pads k ++ [OptionCode.endMark])) :
    (typeScanFrom len i).run m = 0#8 := by
  obtain ⟨j, rfl⟩ : ∃ j, k = 2 * j := ⟨k / 2, by omega⟩
  have behind := lies.split.2.end_mark
  rw [pads_length] at behind
  rw [run_pads lies.split.1, run_typeScanFrom, if_pos behind.1, if_pos behind.2]

end Lies

/-- The runs of PADs up to the first option 53 with a value, or to `END`, are even. -/
def EvenUpToType (last : Nat) : PaddedOptions → Prop
  | [] => last % 2 = 0
  | (k, opt) :: rest => k % 2 = 0 ∧ (opt.typed = true ∨ EvenUpToType last rest)

section Even
variable {m : Memory} {len i last : Nat} {items : PaddedOptions}

/-- **Even runs of PADs are crossed**: the scan returns what the first typed option carries. -/
theorem run_padded (even : EvenUpToType last items) (coded : ∀ item ∈ items, item.2.Coded)
    (lies : LiesAt m len i (paddedBytes items ++ (pads last ++ [OptionCode.endMark]))) :
    (typeScanFrom len i).run m = firstType (items.map Prod.snd) := by
  induction items generalizing i with
  | nil => exact run_last even lies
  | cons item rest ih =>
    obtain ⟨k, opt⟩ := item
    obtain ⟨here, later⟩ := List.forall_mem_cons.mp coded
    rw [paddedBytes_cons, List.append_assoc] at lies
    rw [run_item even.1 here lies.split.1, List.map_cons]
    by_cases typed : opt.typed = true
    · rw [if_pos typed, firstType_typed typed]
    · rw [if_neg typed, firstType_skip typed]
      exact ih (even.2.resolve_left typed) later lies.split.2

/-- Even runs in front of options that are not types. -/
theorem run_cross (even : ∀ item ∈ items, item.1 % 2 = 0) (coded : ∀ item ∈ items, item.2.Coded)
    (untyped : ∀ item ∈ items, ¬ item.2.typed = true) (lies : LiesAt m len i (paddedBytes items)) :
    (typeScanFrom len i).run m = (typeScanFrom len (i + (paddedBytes items).length)).run m := by
  induction items generalizing i with
  | nil => rfl
  | cons item rest ih =>
    obtain ⟨k, opt⟩ := item
    obtain ⟨evenHere, evenLater⟩ := List.forall_mem_cons.mp even
    obtain ⟨codedHere, codedLater⟩ := List.forall_mem_cons.mp coded
    obtain ⟨untypedHere, untypedLater⟩ := List.forall_mem_cons.mp untyped
    rw [paddedBytes_cons] at lies ⊢
    have total : (pads k ++ opt.bytes ++ paddedBytes rest).length =
        (pads k ++ opt.bytes).length + (paddedBytes rest).length := List.length_append
    rw [run_item evenHere codedHere lies.split.1, if_neg untypedHere,
      ih evenLater codedLater untypedLater lies.split.2, total, Nat.add_assoc]

/-- Without an option 53 ahead the scan returns zero. -/
theorem run_untyped (absent : ∀ j, i ≤ j → m j ≠ OptionCode.dhcpMessageType) : (typeScanFrom len i).run m = 0#8 := by
  induction hn : len - i using Nat.strongRecOn generalizing i with
  | ind n ih =>
    subst hn
    rw [run_typeScanFrom]
    split
    · split
      · rfl
      · rw [if_neg fun typed : typedAt m i => absent i (Nat.le_refl i) typed.1]
        apply ih _ (by omega) (fun j ahead => absent j (by omega)) rfl
    · rfl

end Even

/-! ## Which insertions keep every type -/

/-- The type is the same with and without the PADs, wherever the two fields lie. -/
def SameType (items : PaddedOptions) (last : Nat) : Prop :=
  ∀ m m' len, LiesAt m len 0 (paddedField items last) → LiesAt m' len 0 (encodeOptions (items.map Prod.snd)) →
    getDhcpMessageType m len = getDhcpMessageType m' len

/-- Inserting `counts` and `last` PADs keeps the type, whatever the options. -/
def Transparent (counts : List Nat) (last : Nat) : Prop :=
  ∀ items : PaddedOptions, items.map Prod.fst = counts → (∀ item ∈ items, item.2.Coded) → SameType items last

theorem type_unpadded {m : Memory} {len : Nat} {options : List DhcpOption} (coded : ∀ opt ∈ options, opt.Coded)
    (lies : LiesAt m len 0 (encodeOptions options)) : getDhcpMessageType m len = firstType options := by
  have chain := lies.split.2
  exact run_typeScanFrom_chain (optionChain_iff.mpr ⟨fun opt member => (coded opt member).2, chain.1, chain.2⟩)

theorem type_padded {m : Memory} {len last : Nat} {items : PaddedOptions} (even : EvenUpToType last items)
    (coded : ∀ item ∈ items, item.2.Coded) (lies : LiesAt m len 0 (paddedField items last)) :
    getDhcpMessageType m len = firstType (items.map Prod.snd) :=
  run_padded even coded lies.split.2

theorem sameType_of_even {items : PaddedOptions} {last : Nat} (even : EvenUpToType last items)
    (coded : ∀ item ∈ items, item.2.Coded) : SameType items last := by
  intro m m' len padded unpadded
  rw [type_padded even coded padded, type_unpadded (coded_options coded) unpadded]

/-- An option that is not a type. -/
def filler : DhcpOption := ⟨12#8, [], no_data_bound⟩

theorem discoverType_bound : [(1#8 : Byte)].length < 256 := by decide

/-- The option of a DISCOVER. -/
def discoverType : DhcpOption := ⟨OptionCode.dhcpMessageType, [1#8], discoverType_bound⟩

def fillers (counts : List Nat) : PaddedOptions := counts.map fun k => (k, filler)

theorem fillers_counts (counts : List Nat) : (fillers counts).map Prod.fst = counts := by
  simp [fillers, Function.comp_def]

theorem filler_of_mem {counts : List Nat} {item : Nat × DhcpOption} (member : item ∈ fillers counts) :
    item.1 ∈ counts ∧ item.2 = filler := by
  obtain ⟨k, inCounts, rfl⟩ := List.mem_map.mp member
  exact ⟨inCounts, rfl⟩

theorem filler_coded : filler.Coded := ⟨by decide, by decide⟩

theorem filler_untyped : ¬ filler.typed = true := by decide

theorem discoverType_coded : discoverType.Coded := ⟨by decide, by decide⟩

theorem coded_fillers (counts : List Nat) : ∀ item ∈ fillers counts, item.2.Coded :=
  fun _ member => (filler_of_mem member).2 ▸ filler_coded

theorem run_fillers {m : Memory} {len i : Nat} {counts : List Nat} (even : ∀ k ∈ counts, k % 2 = 0)
    (lies : LiesAt m len i (paddedBytes (fillers counts))) :
    (typeScanFrom len i).run m = (typeScanFrom len (i + (paddedBytes (fillers counts)).length)).run m := by
  apply run_cross _ _ _ lies
  · exact fun item member => even _ (filler_of_mem member).1
  · exact coded_fillers counts
  · exact fun item member => (filler_of_mem member).2 ▸ filler_untyped

theorem firstType_fillers (counts : List Nat) (rest : PaddedOptions) :
    firstType ((fillers counts ++ rest).map Prod.snd) = firstType (rest.map Prod.snd) := by
  induction counts with
  | nil => rfl
  | cons k counts ih => exact (firstType_skip filler_untyped).trans ih

theorem liesAt_write {bs : List Byte} {len : Nat} (room : bs.length ≤ len) :
    LiesAt (Memory.zero.write 0 bs) len 0 bs :=
  ⟨by omega, Memory.slice_write_same _ 0 bs⟩

/-- In a zeroed memory, what does not lie in the back of a field does not lie behind it either. -/
theorem absent_behind {front back : List Byte} {b : Byte} (nonzero : b ≠ 0#8) (absent : b ∉ back) {j : Nat}
    (behind : front.length ≤ j) : Memory.zero.write 0 (front ++ back) j ≠ b := by
  obtain ⟨u, rfl⟩ := Nat.exists_eq_add_of_le behind
  have byte : Memory.zero.write 0 (front ++ back) (front.length + u) = (back[u]?).getD 0#8 := by
    simp [Memory.write, List.getElem?_append_right]
  rw [byte]
  cases here : back[u]? with
  | none => exact Ne.symm nonzero
  | some c =>
    rintro rfl
    exact absent (List.mem_of_getElem? here)

theorem no_type_in_fillers (counts : List Nat) : OptionCode.dhcpMessageType ∉ paddedBytes (fillers counts) := by
  intro member
  obtain ⟨item, inItems, inBytes⟩ := List.mem_flatMap.mp member
  rw [(filler_of_mem inItems).2] at inBytes
  rcases List.mem_append.mp inBytes with inPads | inFiller
  · exact absurd (List.eq_of_mem_replicate inPads) (by decide)
  · exact absurd inFiller (by decide)

theorem coded_items {front back : List Nat} (k : Nat) :
    ∀ item ∈ fillers front ++ (k, discoverType) :: fillers back, item.2.Coded := by
  intro item member
  rcases List.mem_append.mp member with inFront | inRest
  · exact coded_fillers front item inFront
  · rcases List.mem_cons.mp inRest with rfl | inBack
    · exact discoverType_coded
    · exact coded_fillers back item inBack

/-- An odd run in front of a DISCOVER's option 53 hides it from a scan with no other 53 ahead. -/
theorem run_hidden {m : Memory} {len i k : Nat} {front back : List Nat} (even : ∀ x ∈ front, x % 2 = 0)
    (odd : k % 2 = 1) (lies : LiesAt m len i (paddedBytes (fillers front ++ (k, discoverType) :: fillers back)))
    (absent : ∀ j, i + (paddedBytes (fillers front)).length + k < j → m j ≠ OptionCode.dhcpMessageType) :
    (typeScanFrom len i).run m = 0#8 := by
  rw [paddedBytes_append, paddedBytes_cons] at lies
  have item := lies.split.2.split.1
  have code := (optionAt_of_slice item.split.2.2).2.2
  rw [pads_length] at code
  rw [run_fillers even lies.split.1, run_pads_odd odd item.split.1, code]
  apply run_untyped
  intro j ahead
  exact absent j (by omega)

/-- Such a field and its unpadded form have different types. -/
theorem not_sameType_hidden {front back : List Nat} {k last : Nat} (even : ∀ x ∈ front, x % 2 = 0)
    (odd : k % 2 = 1) : ¬ SameType (fillers front ++ (k, discoverType) :: fillers back) last := by
  intro same
  let items := fillers front ++ (k, discoverType) :: fillers back
  -- the field up to the code 53, and the rest, which has no 53
  let upto := optionMagic ++ paddedBytes (fillers front) ++ pads k ++ [OptionCode.dhcpMessageType]
  let rest := [1#8, 1#8] ++ paddedBytes (fillers back) ++ pads last ++ [OptionCode.endMark]
  have field : paddedField items last = upto ++ rest := by
    simp [paddedField, paddedBytes, items, upto, rest, DhcpOption.bytes, discoverType, DhcpOption.len]
  have absent : OptionCode.dhcpMessageType ∉ rest := by
    simp only [rest, List.mem_append, not_or]
    refine ⟨⟨⟨by decide, no_type_in_fillers back⟩, fun inPads => ?_⟩, by decide⟩
    exact absurd (List.eq_of_mem_replicate inPads) (by decide)
  let len := (paddedField items last).length + (encodeOptions (items.map Prod.snd)).length
  have padded : LiesAt (Memory.zero.write 0 (paddedField items last)) len 0 (paddedField items last) :=
    liesAt_write (Nat.le_add_right _ _)
  have unpadded : LiesAt (Memory.zero.write 0 (encodeOptions (items.map Prod.snd))) len 0
      (encodeOptions (items.map Prod.snd)) := liesAt_write (Nat.le_add_left _ _)
  have hidden : getDhcpMessageType (Memory.zero.write 0 (paddedField items last)) len = 0#8 := by
    apply run_hidden even odd padded.split.2.split.1
    intro j behind
    rw [field]
    apply absent_behind (by decide) absent
    have : optionMagic.length = 4 := rfl
    simp only [upto, List.length_append, pads_length, List.length_singleton] at behind ⊢
    omega
  have type : getDhcpMessageType (Memory.zero.write 0 (encodeOptions (items.map Prod.snd))) len = 1#8 := by
    rw [type_unpadded (coded_options (coded_items k)) unpadded, firstType_fillers]
    rfl
  have clash : 0#8 = 1#8 := hidden.symm.trans ((same _ _ len padded unpadded).trans type)
  exact absurd clash (by decide)

/-- An odd run in front of `END` makes the scan leave the field, for memory that can hold any type. -/
theorem not_sameType_beyond {counts : List Nat} {last : Nat} (even : ∀ x ∈ counts, x % 2 = 0)
    (odd : last % 2 = 1) : ¬ SameType (fillers counts) last := by
  intro same
  let field := paddedField (fillers counts) last
  let m := (Memory.zero.write 0 field).write (field.length + 255) [OptionCode.dhcpMessageType, 1#8, 1#8]
  let plain := encodeOptions ((fillers counts).map Prod.snd)
  let len := field.length + 258 + plain.length
  have padded : LiesAt m len 0 field := by
    refine ⟨by omega, ?_⟩
    rw [Memory.slice_write_apart _ _ _ (Or.inl (by omega))]
    exact Memory.slice_write_same _ 0 field
  have unpadded : LiesAt (Memory.zero.write 0 plain) len 0 plain := liesAt_write (Nat.le_add_left _ _)
  have beyond : getDhcpMessageType m len = 1#8 := by
    obtain ⟨options, tail⟩ := padded.split.2.split
    have code := tail.split.2.end_mark.2
    have total : field.length = 4 + ((paddedBytes (fillers counts)).length + (last + 1)) := by
      simp only [field, paddedField, List.length_append, pads_length, List.length_singleton]
      rfl
    have start : 0 + optionMagic.length = 4 := rfl
    rw [pads_length] at code
    rw [start] at options tail code
    have jump : 4 + (paddedBytes (fillers counts)).length + last + 1 + OptionCode.endMark.toNat =
        field.length + 255 := by
      rw [total]
      show _ + 255 = _
      omega
    rw [getDhcpMessageType, typeScan, run_fillers even options, run_pads_odd odd tail.split.1, code, jump]
    exact run_typeScanFrom_laid _ _ _ (by omega) (Memory.slice_write_same _ _ _)
  have type : getDhcpMessageType (Memory.zero.write 0 plain) len = 0#8 := by
    rw [type_unpadded (coded_options (coded_fillers counts)) unpadded]
    simpa using firstType_fillers counts []
  have clash : 1#8 = 0#8 := beyond.symm.trans ((same _ _ len padded unpadded).trans type)
  exact absurd clash (by decide)

/-- An insertion with an odd run hides the type of some options. -/
theorem even_of_transparent {counts : List Nat} {last : Nat} (transparent : Transparent counts last) :
    (∀ k ∈ counts, k % 2 = 0) ∧ last % 2 = 0 := by
  cases found : counts.find? fun k => k % 2 == 1 with
  | some k =>
    obtain ⟨odd, front, back, rfl, before⟩ := List.find?_eq_some_iff_append.mp found
    have even : ∀ x ∈ front, x % 2 = 0 := by
      intro x member
      have := before x member
      simp only [Bool.not_eq_true', beq_eq_false_iff_ne] at this
      omega
    have counts_eq : (fillers front ++ (k, discoverType) :: fillers back).map Prod.fst = front ++ k :: back := by
      rw [List.map_append, List.map_cons, fillers_counts, fillers_counts]
    exact (not_sameType_hidden even (eq_of_beq odd) (transparent _ counts_eq (coded_items k))).elim
  | none =>
    have even : ∀ k ∈ counts, k % 2 = 0 := by
      intro k member
      have := List.find?_eq_none.mp found k member
      simp only [beq_iff_eq] at this
      omega
    refine ⟨even, ?_⟩
    by_contra odd
    exact not_sameType_beyond even (by omega) (transparent _ (fillers_counts counts) (coded_fillers counts))

theorem evenUpToType_of_even {last : Nat} (lastEven : last % 2 = 0) {items : PaddedOptions}
    (even : ∀ item ∈ items, item.1 % 2 = 0) : EvenUpToType last items := by
  induction items with
  | nil => exact lastEven
  | cons item rest ih =>
    obtain ⟨here, later⟩ := List.forall_mem_cons.mp even
    exact ⟨here, Or.inr (ih later)⟩

/-- **When PADs are transparent to the type scan.** An insertion of PADs keeps the type of all options
exactly when all its runs are even; for options at hand it is enough that the runs up to their first
typed option are. -/
theorem transparent_iff (counts : List Nat) (last : Nat) :
    (Transparent counts last ↔ (∀ k ∈ counts, k % 2 = 0) ∧ last % 2 = 0) ∧
    ∀ items : PaddedOptions, (∀ item ∈ items, item.2.Coded) → EvenUpToType last items → SameType items last := by
  refine ⟨⟨even_of_transparent, ?_⟩, fun items coded even => sameType_of_even even coded⟩
  rintro ⟨even, lastEven⟩ items rfl coded
  refine sameType_of_even (evenUpToType_of_even lastEven fun item member => ?_) coded
  exact even item.1 (List.mem_map_of_mem member)

/-- Two PADs in front of a DISCOVER's type, and one behind it. -/
theorem transparent_iff_discover : EvenUpToType 1 [(2, discoverType)] ∧ SameType [(2, discoverType)] 1 := by
  have even : EvenUpToType 1 [(2, discoverType)] := ⟨rfl, Or.inl rfl⟩
  exact ⟨even, (transparent_iff [2] 1).2 _ (fun item member => List.mem_singleton.mp member ▸ discoverType_coded) even⟩

/-- A single PAD in front of it, in a zeroed array of 312 bytes. -/
theorem pad_hides_discover :
    getDhcpMessageType (Memory.zero.write 0 (paddedField [(1, discoverType)] 0)) 312 = 0#8 ∧
    getDhcpMessageType (Memory.zero.write 0 (encodeOptions [discoverType])) 312 = 1#8 ∧
    ¬ Transparent [1] 0 := by
  have hidden : getDhcpMessageType (Memory.zero.write 0 (paddedField [(1, discoverType)] 0)) 312 = 0#8 := by
    decide
  have type : getDhcpMessageType (Memory.zero.write 0 (encodeOptions [discoverType])) 312 = 1#8 := by
    decide
  refine ⟨hidden, type, fun transparent => ?_⟩
  have same := transparent [(1, discoverType)] rfl (fun item member => List.mem_singleton.mp member ▸ discoverType_coded)
    _ _ 312 (liesAt_write (by decide)) (liesAt_write (by decide))
  have clash : 0#8 = 1#8 := hidden.symm.trans (same.trans type)
  exact absurd clash (by decide)

end DhcpServer
