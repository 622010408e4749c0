import DhcpServer.OptionTable
import DhcpServer.SerializeBounds

/-!
# Options from text to text (`parse_option` to `search_option`)

The functions of `options.c` one after the other: options are given by name and value, collected in a list,
serialized, parsed at the other end, looked up by their code and printed.
-/

namespace DhcpServer
set_option autoImplicit false
open Lib

/-- `init_option_list`. -/
def initOptionList : List DhcpOption := []

/-- `search_option`: the option that the pointer returned leads to. -/
def searchOption (list : List DhcpOption) (id : Byte) : Option DhcpOption := list.find? fun opt => opt.id == id

/-- A line of `print_options`; `none` is a `%s` for the name of a code that has none. -/
def optionLine (i : Nat) (opt : DhcpOption) : Option (List Char) :=
  (dhcpOptionInfo opt.id.toNat).map fun info =>
    "options[".toList ++ Nat.toDigits 10 i ++ "]=".toList ++ Nat.toDigits 10 opt.id.toNat ++ " (".toList ++
      info.name.toList ++ ")\n".toList

/-- The loop of `print_options`. -/
def printOptionsFrom : Nat → List DhcpOption → Option (List Char)
  | _, [] => some []
  | i, opt :: rest => do
    let line ← optionLine i opt
    let lines ← printOptionsFrom (i + 1) rest
    pure (line ++ lines)

/-- `print_options`. -/
def printOptions (list : List DhcpOption) : Option (List Char) := printOptionsFrom 0 list

/-- `parse_option` into one `opt`, and `append_option` of what it stored, text after text, while the calls have
a result. -/
def addOptions : DhcpOption → List DhcpOption → List (String × List Char) → Option (List DhcpOption)
  | _, list, [] => some list
  | opt, list, text :: texts => do
    let parsed ← runParseOption opt text.1 text.2
    addOptions parsed.2 (if parsed.1 = 0#8 then list else list ++ [parsed.2]) texts

/-- The value of the text has room where the parser of its name puts it. -/
def HasRoom (text : String × List Char) : Prop := ∀ info f, Selects text.1 info f → f.InsideAllocation text.2

/-- The option that a text is stored as. -/
def storedOption (text : String × List Char) : Option DhcpOption :=
  if (parseOption blankOption text.1 text.2).1 = 0#8 then none
  else some (parseOption blankOption text.1 text.2).2

/-- The values given under a name. -/
def valuesOf (name : String) (texts : List (String × List Char)) : List (List Char) :=
  (texts.filter fun text => text.1 == name).map Prod.snd

/-- What is kept of the bytes of a value: as many as their number in a `uint8_t` says. -/
def sentBytes (bytes : List Byte) : List Byte := bytes.take (BitVec.ofNat 8 bytes.length).toNat

theorem sentBytes_bound (bytes : List Byte) : (sentBytes bytes).length < 256 := taken_bound _ _

theorem sentBytes_isEmpty (bytes : List Byte) :
    (sentBytes bytes).isEmpty = true ↔ BitVec.ofNat 8 bytes.length = 0#8 := by
  rw [List.isEmpty_iff_length_eq_zero, sentBytes, List.length_take, ← BitVec.toNat_inj, BitVec.toNat_ofNat]
  show min (bytes.length % 256) bytes.length = 0 ↔ bytes.length % 256 = 0
  omega

section Stored
variable {opt stored : DhcpOption} {list : List DhcpOption} {text : String × List Char}
  {texts : List (String × List Char)} {row : OptionInfo} {f : OptionParser}

/-- What `*opt` was before only stays where nothing is stored. -/
theorem parseOption_blank (opt : DhcpOption) (name : String) (value : List Char) :
    (parseOption opt name value).1 = (parseOption blankOption name value).1 ∧
      ((parseOption opt name value).1 ≠ 0#8 →
        (parseOption opt name value).2 = (parseOption blankOption name value).2) := by
  by_cases selected : ∃ info f, Selects name info f
  · obtain ⟨info, f, selects⟩ := selected
    rw [parseOption_selects selects, parseOption_selects selects]
    split
    · exact ⟨rfl, fun stored => (stored rfl).elim⟩
    · exact ⟨rfl, fun _ => rfl⟩
  · have unsupported : ∀ info f, ¬ Selects name info f := fun info f selects => selected ⟨info, f, selects⟩
    rw [parseOption_unsupported opt value unsupported, parseOption_unsupported blankOption value unsupported]
    exact ⟨rfl, fun stored => (stored rfl).elim⟩

theorem runParseOption_room (room : HasRoom text) :
    runParseOption opt text.1 text.2 = some (parseOption opt text.1 text.2) := by
  by_cases selected : ∃ info f, Selects text.1 info f
  · obtain ⟨info, f, selects⟩ := selected
    rw [runParseOption_selects selects, if_pos (room info f selects)]
  · have unsupported : ∀ info f, ¬ Selects text.1 info f := fun info f selects => selected ⟨info, f, selects⟩
    rw [runParseOption_unsupported opt text.2 unsupported, parseOption_unsupported opt text.2 unsupported]

/-- The list collects what the texts are stored as. -/
theorem addOptions_eq (room : ∀ text ∈ texts, HasRoom text) :
    addOptions opt list texts = some (list ++ texts.filterMap storedOption) := by
  induction texts generalizing opt list with
  | nil => exact congrArg some (List.append_nil list).symm
  | cons text texts ih =>
    obtain ⟨here, later⟩ := List.forall_mem_cons.mp room
    obtain ⟨returned, data⟩ := parseOption_blank opt text.1 text.2
    rw [addOptions, runParseOption_room here, Option.bind_eq_bind, Option.bind_some, ih later, List.filterMap_cons,
      storedOption]
    by_cases nothing : (parseOption opt text.1 text.2).1 = 0#8
    · rw [if_pos nothing, if_pos (returned ▸ nothing)]
    · rw [if_neg nothing, if_neg (returned ▸ nothing), data nothing, List.append_assoc, List.singleton_append]

/-- A code with a parser is neither `PAD` nor `END`. -/
theorem parsed_id_bounds : ∀ info ∈ optionInfos, info.f.isSome = true → 0 < info.id ∧ info.id < 255 := by decide

/-- What is stored has the code of the element with that name. -/
theorem storedOption_some (stores : storedOption text = some stored) : ∃ info f, Selects text.1 info f ∧
    stored.id = BitVec.ofNat 8 info.id ∧ stored.id.toNat = info.id := by
  rw [storedOption] at stores
  by_cases selected : ∃ info f, Selects text.1 info f
  · obtain ⟨info, f, selects⟩ := selected
    have small := (parsed_id_bounds info (mem_of_findOption selects.1) (by rw [selects.2]; rfl)).2
    have stored' := parseOption_selects selects blankOption text.2
    by_cases none : BitVec.ofNat 8 (f.parse text.2).length = 0#8
    · rw [if_pos none] at stored'
      rw [stored', if_pos rfl] at stores
      cases stores
    · rw [if_neg none] at stored'
      rw [stored', if_neg selects.id_ne_zero] at stores
      cases stores
      exact ⟨info, f, selects, rfl, by rw [BitVec.toNat_ofNat]; omega⟩
  · rw [parseOption_unsupported _ _ fun info f selects => selected ⟨info, f, selects⟩] at stores
    cases stores

/-- Nothing is stored under the code of the end mark. -/
theorem stored_unmarked : ∀ opt ∈ texts.filterMap storedOption, opt.id ≠ OptionCode.endMark := by
  intro opt member mark
  obtain ⟨text, -, stores⟩ := List.mem_filterMap.mp member
  obtain ⟨info, f, selects, -, code⟩ := storedOption_some stores
  have small := (parsed_id_bounds info (mem_of_findOption selects.1) (by rw [selects.2]; rfl)).2
  rw [mark] at code
  exact absurd code (Nat.ne_of_gt small)

/-- Every code that is stored has a name. -/
theorem stored_named : ∀ opt ∈ texts.filterMap storedOption, (dhcpOptionInfo opt.id.toNat).isSome = true := by
  intro opt member
  obtain ⟨text, -, stores⟩ := List.mem_filterMap.mp member
  obtain ⟨info, f, selects, -, code⟩ := storedOption_some stores
  rw [code, (findOption_eq_some_iff.mp selects.1).2]
  rfl

/-- A list is printed when its codes all have names. -/
theorem printOptionsFrom_isSome (i : Nat) : (printOptionsFrom i list).isSome = true ↔
    ∀ opt ∈ list, (dhcpOptionInfo opt.id.toNat).isSome = true := by
  induction list generalizing i with
  | nil => exact ⟨fun _ => nofun, fun _ => rfl⟩
  | cons opt rest ih =>
    rw [List.forall_mem_cons, ← ih (i + 1), printOptionsFrom, optionLine]
    cases dhcpOptionInfo opt.id.toNat with
    | none => exact ⟨nofun, fun named => nomatch named.1⟩
    | some info =>
      cases printOptionsFrom (i + 1) rest with
      | none => exact ⟨nofun, fun named => nomatch named.2⟩
      | some lines => exact ⟨fun _ => ⟨rfl, rfl⟩, fun _ => rfl⟩

/-- Texts of other names are stored under other codes. -/
theorem stored_other (selects : Selects row.name row f) (stores : storedOption text = some stored)
    (differs : text.1 ≠ row.name) : stored.id ≠ BitVec.ofNat 8 row.id := by
  obtain ⟨info, f', selects', id, -⟩ := storedOption_some stores
  obtain ⟨-, element⟩ := findOption_eq_some_iff.mp selects.1
  obtain ⟨name', element'⟩ := findOption_eq_some_iff.mp selects'.1
  intro same
  obtain rfl := element_of_code element' element (id.symm.trans same)
  exact differs name'.symm

/-- A value is stored as the bytes that are left of it, if any are. -/
theorem storedOption_selects (selects : Selects text.1 row f) : storedOption text =
    if (sentBytes (f.parse text.2)).isEmpty then none
    else some ⟨BitVec.ofNat 8 row.id, sentBytes (f.parse text.2), sentBytes_bound _⟩ := by
  rw [storedOption, parseOption_selects selects]
  by_cases none : BitVec.ofNat 8 (f.parse text.2).length = 0#8
  · rw [if_pos none, if_pos rfl, if_pos ((sentBytes_isEmpty _).mpr none)]
  · rw [if_neg none, if_neg selects.id_ne_zero, if_neg fun empty => none ((sentBytes_isEmpty _).mp empty)]
    rfl

/-- The search by code finds the first text of the name with a value. -/
theorem searchOption_stored (selects : Selects row.name row f) :
    (searchOption (texts.filterMap storedOption) (BitVec.ofNat 8 row.id)).map DhcpOption.data =
      ((valuesOf row.name texts).map fun value => sentBytes (f.parse value)).find? fun bytes => !bytes.isEmpty := by
  induction texts with
  | nil => rfl
  | cons text texts ih =>
    rw [List.filterMap_cons, valuesOf, List.filter_cons]
    by_cases named : text.1 = row.name
    · have same : (text.1 == row.name) = true := beq_iff_eq.mpr named
      rw [if_pos same, List.map_cons, List.map_cons, List.find?_cons, storedOption_selects (named ▸ selects)]
      by_cases empty : (sentBytes (f.parse text.2)).isEmpty = true
      · rw [if_pos empty, empty]
        exact ih
      · have nonempty : (sentBytes (f.parse text.2)).isEmpty = false := Bool.eq_false_iff.mpr empty
        rw [if_neg empty, nonempty, searchOption, List.find?_cons, beq_self_eq_true]
        rfl
    · have differs : (text.1 == row.name) = false := beq_false_of_ne named
      rw [if_neg (Bool.eq_false_iff.mp differs)]
      cases stores : storedOption text with
      | none => exact ih
      | some stored =>
        have other : (stored.id == BitVec.ofNat 8 row.id) = false := beq_false_of_ne (stored_other selects stores named)
        rw [searchOption, List.find?_cons, other]
        exact ih

end Stored

/-- What becomes of options given as texts and collected in a list: the list fits or is not serialized, it is
printed, the other end parses the same list, and finds under the code of a name what is left of the first value
given under it. -/
structure TextsArrive (texts : List (String × List Char)) (list : List DhcpOption) (buf : Memory) (len : BitVec 64) :
    Prop where
  fits : 0 < (serializeOptionList list buf len).1 ↔ totalSize list ≤ len.toNat
  printed : (printOptions list).isSome = true
  parsed : ∀ n written, serializeOptionList list buf len = (n, written) → 0 < n →
    ∀ (m : Memory) (len' : BitVec 64), n ≤ len'.toNat → m.slice 0 n = written.slice 0 n →
      (parseOptionsToList initOptionList len').run m = (true, list)
  found : ∀ row ∈ optionInfos, ∀ f, row.f = some f → row.name ≠ "TIME_SERVER" →
    (searchOption list (BitVec.ofNat 8 row.id)).map DhcpOption.data =
      ((valuesOf row.name texts).map fun value => sentBytes (f.parse value)).find? fun bytes => !bytes.isEmpty

/-- **Options arrive as they were given**, whatever the texts are, as long as their values have room. -/
theorem options_arrive (opt : DhcpOption) {texts : List (String × List Char)} (room : ∀ text ∈ texts, HasRoom text)
    (buf : Memory) (len : BitVec 64) :
    ∃ list, addOptions opt initOptionList texts = some list ∧ TextsArrive texts list buf len := by
  refine ⟨texts.filterMap storedOption, addOptions_eq room, ?_⟩
  constructor
  · rw [← encodeOptions_totalSize]
    constructor
    · exact fits_of_serialize
    · intro enough
      rw [serialize_fits enough, encodeOptions_length]
      exact Nat.lt_add_right _ (by decide)
  · rw [printOptions, printOptionsFrom_isSome]
    exact stored_named
  · intro n written serialized success m len' inside starts
    have fits := @fits_of_serialize _ len buf (by rw [serialized]; exact success)
    rw [serialize_fits fits] at serialized
    obtain ⟨rfl, rfl⟩ := Prod.mk.inj serialized
    rw [Memory.slice_write_same] at starts
    obtain ⟨cookie, chain⟩ := encoded_iff.mpr ⟨stored_unmarked, inside, starts⟩
    exact run_parseOptionsToList cookie chain
  · intro row member f parser name
    exact searchOption_stored ((selects_iff member).mpr ⟨rfl, parser, name⟩)

/-- A host name, and two routers in twice the characters that they need. -/
theorem options_arrive_routers : ∃ list,
    addOptions blankOption initOptionList
      [("HOST_NAME", "printer".toList), ("ROUTER", "10.0.0.1 10.0.0.2".toList)] = some list ∧
    TextsArrive [("HOST_NAME", "printer".toList), ("ROUTER", "10.0.0.1 10.0.0.2".toList)] list Memory.zero 64#64 := by
  have name : Selects "HOST_NAME" ⟨12, "HOST_NAME", some .string⟩ .string := ⟨by decide, rfl⟩
  have router : Selects "ROUTER" ⟨3, "ROUTER", some .ipList⟩ .ipList := ⟨by decide, rfl⟩
  refine options_arrive blankOption ?_ Memory.zero 64#64
  rw [List.forall_mem_cons, List.forall_mem_singleton]
  constructor
  · intro info f selects
    obtain ⟨-, rfl⟩ := name.unique selects
    decide
  · intro info f selects
    obtain ⟨-, rfl⟩ := router.unique selects
    decide +kernel

end DhcpServer
