import DhcpServer.ReplyDecode
import DhcpServer.ValueStores

/-!
# What `parse_option` stores

The number of bytes of a value is narrowed to a `uint8_t` before it is tested and used, so of a long
value a remainder is stored, or nothing at all. A list of addresses that has no room in the allocation of
its parser damages the heap, and the call need not even return.
-/

namespace DhcpServer
set_option autoImplicit false
open Lib

/-- The element of the table for a name with a parser. -/
def Selects (name : String) (info : OptionInfo) (f : OptionParser) : Prop :=
  findOption name = some info ∧ info.f = some f

section Table
variable {name : String} {info : OptionInfo} {f : OptionParser}

theorem mem_of_findOption (found : findOption name = some info) : info ∈ optionInfos := by
  obtain ⟨id, -, element⟩ := Option.bind_eq_some_iff.mp found
  exact List.mem_reverse.mp (List.mem_of_find?_eq_some element)

/-- An option with a parser has a code of its own, not `PAD`. -/
theorem id_bounds : ∀ info ∈ optionInfos, info.f.isSome = true → 0 < info.id ∧ info.id < 256 := by decide

theorem Selects.id_ne_zero (selects : Selects name info f) : BitVec.ofNat 8 info.id ≠ 0#8 := by
  have parsed : info.f.isSome = true := by rw [selects.2]; rfl
  obtain ⟨positive, small⟩ := id_bounds info (mem_of_findOption selects.1) parsed
  intro zero
  have same := congrArg BitVec.toNat zero
  rw [BitVec.toNat_ofNat, Nat.mod_eq_of_lt small] at same
  exact absurd same (Nat.ne_of_gt positive)

/-- Without a parser nothing is stored. -/
theorem parseOption_unsupported (opt : DhcpOption) (value : List Char)
    (unsupported : ∀ info f, ¬ Selects name info f) :
    parseOption opt name value = (0#8, opt) := by
  rw [parseOption]
  cases found : findOption name with
  | none => rfl
  | some info =>
    cases parser : info.f with
    | none => simp only [parser]
    | some f => exact (unsupported info f ⟨found, parser⟩).elim

theorem parseOption_selects (selects : Selects name info f) (opt : DhcpOption) (value : List Char) :
    parseOption opt name value =
      if BitVec.ofNat 8 (f.parse value).length = 0#8 then (0#8, opt)
      else (BitVec.ofNat 8 info.id, ⟨BitVec.ofNat 8 info.id,
        (f.parse value).take (BitVec.ofNat 8 (f.parse value).length).toNat, taken_bound _ _⟩) := by
  simp only [parseOption, selects.1, selects.2]

/-- A value of at least one and fewer than 256 bytes is stored whole. -/
theorem parseOption_stored (selects : Selects name info f) (opt : DhcpOption) (value : List Char)
    (some : 0 < (f.parse value).length) (short : (f.parse value).length < 256) :
    (parseOption opt name value).1 = BitVec.ofNat 8 info.id ∧
      (parseOption opt name value).2.id = BitVec.ofNat 8 info.id ∧
      (parseOption opt name value).2.data = f.parse value := by
  have number : (BitVec.ofNat 8 (f.parse value).length).toNat = (f.parse value).length := by
    rw [BitVec.toNat_ofNat, Nat.mod_eq_of_lt short]
  have tested : BitVec.ofNat 8 (f.parse value).length ≠ 0#8 := by
    intro zero
    rw [zero] at number
    exact absurd number (Nat.ne_of_lt some)
  rw [parseOption_selects selects, if_neg tested]
  exact ⟨rfl, rfl, (congrArg (f.parse value).take number).trans List.take_length⟩

end Table

/-! ## Whole values -/

/-- A call of `parse_option`: there is a result to speak of when its parser stays inside its allocation. -/
def runParseOption (opt : DhcpOption) (name : String) (value : List Char) : Option (Byte × DhcpOption) :=
  match (findOption name).bind OptionInfo.f with
  | some f => if f.InsideAllocation value then some (parseOption opt name value) else none
  | none => some (parseOption opt name value)

/-- The call returns; nothing is stored, or all the bytes the parser of the name produced. -/
def StoresWhole (opt : DhcpOption) (name : String) (value : List Char) : Prop :=
  ∃ result, runParseOption opt name value = some result ∧
    (result = (0#8, opt) ∨
      ∃ info f, Selects name info f ∧ result.1 = BitVec.ofNat 8 info.id ∧ result.2.id = BitVec.ofNat 8 info.id ∧
        result.2.len.toNat = (f.parse value).length ∧ result.2.data = f.parse value)

section Stores
variable {name : String} {info : OptionInfo} {f : OptionParser}

theorem Selects.unique {info' : OptionInfo} {f' : OptionParser} (selects : Selects name info f)
    (selects' : Selects name info' f') : info' = info ∧ f' = f := by
  obtain rfl := Option.some.inj (selects.1.symm.trans selects'.1)
  exact ⟨rfl, (Option.some.inj (selects.2.symm.trans selects'.2)).symm⟩

theorem runParseOption_selects (selects : Selects name info f) (opt : DhcpOption) (value : List Char) :
    runParseOption opt name value = if f.InsideAllocation value then some (parseOption opt name value) else none := by
  have parser : (findOption name).bind OptionInfo.f = some f := by
    rw [selects.1]
    exact selects.2
  simp only [runParseOption, parser]

/-- With no parser nothing is allocated either. -/
theorem runParseOption_unsupported (opt : DhcpOption) (value : List Char)
    (unsupported : ∀ info f, ¬ Selects name info f) : runParseOption opt name value = some (0#8, opt) := by
  rw [runParseOption, parseOption_unsupported opt value unsupported]
  cases parser : (findOption name).bind OptionInfo.f with
  | none => rfl
  | some f =>
    obtain ⟨info, found, selected⟩ := Option.bind_eq_some_iff.mp parser
    exact (unsupported info f ⟨found, selected⟩).elim

theorem storesWhole_of_selects (selects : Selects name info f) (opt : DhcpOption) (value : List Char) :
    StoresWhole opt name value ↔
      f.InsideAllocation value ∧ ((f.parse value).length < 256 ∨ (f.parse value).length % 256 = 0) := by
  rw [StoresWhole, runParseOption_selects selects]
  by_cases inside : f.InsideAllocation value
  swap
  · rw [if_neg inside]
    exact iff_of_false nofun fun both => inside both.1
  simp only [if_pos inside, Option.some.injEq, exists_eq_left', and_iff_right inside]
  have number : (BitVec.ofNat 8 (f.parse value).length).toNat = (f.parse value).length % 256 := BitVec.toNat_ofNat _ _
  have stored := parseOption_selects selects opt value
  by_cases none : BitVec.ofNat 8 (f.parse value).length = 0#8
  · -- nothing is stored
    rw [if_pos none] at stored
    have multiple := congrArg BitVec.toNat none
    rw [number] at multiple
    exact iff_of_true (Or.inl stored) (Or.inr multiple)
  · rw [if_neg none] at stored
    have some : (f.parse value).length % 256 ≠ 0 := fun zero => none (BitVec.eq_of_toNat_eq (number.trans zero))
    constructor
    · rintro (empty | ⟨info', f', selects', -, -, -, data⟩)
      · exact (selects.id_ne_zero (congrArg Prod.fst (stored.symm.trans empty))).elim
      · obtain ⟨rfl, rfl⟩ := selects.unique selects'
        rw [← data]
        exact Or.inl (parseOption opt name value).2.bound
    · intro lengths
      have positive : 0 < (f.parse value).length := by omega
      obtain ⟨returned, id, data⟩ := parseOption_stored selects opt value positive (lengths.resolve_right some)
      refine Or.inr ⟨info, f, selects, returned, id, ?_, data⟩
      rw [DhcpOption.len_toNat, data]

end Stores

/-- **When `parse_option` stores the whole value or nothing**: when the bytes of the value number fewer
than 256, or a multiple of 256, and, for a list of addresses, what is written of them and around them takes
four characters an address. -/
theorem storesWhole_iff (opt : DhcpOption) (name : String) (value : List Char) :
    StoresWhole opt name value ↔ ∀ info f, Selects name info f →
      (f = .ipList → 4 * (leadingIps value).length ≤ value.length) ∧
        ((f.parse value).length < 256 ∨ (f.parse value).length % 256 = 0) := by
  constructor
  · intro whole info f selects
    rw [← insideAllocation_iff]
    exact (storesWhole_of_selects selects opt value).mp whole
  · intro lengths
    by_cases supported : ∃ info f, Selects name info f
    · obtain ⟨info, f, selects⟩ := supported
      have inside := lengths info f selects
      rw [← insideAllocation_iff] at inside
      exact (storesWhole_of_selects selects opt value).mpr inside
    · have unsupported : ∀ info f, ¬ Selects name info f := fun info f selects => supported ⟨info, f, selects⟩
      exact ⟨_, runParseOption_unsupported opt value unsupported, Or.inl rfl⟩

/-- The option before it is parsed. -/
def blankOption : DhcpOption := ⟨0#8, [], no_data_bound⟩

/-- Of a host name of 300 characters 44 are stored. -/
theorem host_name_cut : (parseOption blankOption "HOST_NAME" (List.replicate 300 'a')).1 = 12#8 ∧
    (parseOption blankOption "HOST_NAME" (List.replicate 300 'a')).2.data.length = 44 ∧
    ¬ StoresWhole blankOption "HOST_NAME" (List.replicate 300 'a') := by
  have selects : Selects "HOST_NAME" ⟨12, "HOST_NAME", some .string⟩ .string := ⟨by decide, rfl⟩
  have length : (OptionParser.string.parse (List.replicate 300 'a')).length = 300 :=
    (List.length_map _).trans List.length_replicate
  have stored := parseOption_selects selects blankOption (List.replicate 300 'a')
  rw [length, if_neg (by decide)] at stored
  refine ⟨congrArg Prod.fst stored, ?_, fun whole => ?_⟩
  · rw [stored, List.length_take, length]
    rfl
  · have lengths := ((storesWhole_of_selects selects blankOption _).mp whole).2
    rw [length] at lengths
    exact absurd lengths (by decide)

end DhcpServer
