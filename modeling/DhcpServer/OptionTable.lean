import DhcpServer.StoredOptions
import DhcpServer.ValueLists
import Mathlib.Data.List.Nodup

/-!
# The rows of the option table (`dhcp_option_info`)

A row is written for each name of `options.h`. Where two names stand for the same code the later row takes the
element of the earlier one, whose name is then not found.
-/

namespace DhcpServer
set_option autoImplicit false
open Lib

/-- A row can be used: the bytes of a value are stored under the code of the row, and no option of another
row has this code. -/
structure RowUsable (row : OptionInfo) : Prop where
  stores : ∀ f, row.f = some f → ∀ (opt : DhcpOption) value, 0 < (f.parse value).length →
    (f.parse value).length < 256 → (parseOption opt row.name value).1 = BitVec.ofNat 8 row.id ∧
      (parseOption opt row.name value).2.id = BitVec.ofNat 8 row.id ∧
      (parseOption opt row.name value).2.data = f.parse value
  distinct : ∀ other ∈ optionInfos, other ≠ row → ∀ (opt opt' : DhcpOption) value value',
    (parseOption opt row.name value).1 ≠ 0#8 → (parseOption opt' other.name value').1 ≠ 0#8 →
      (parseOption opt row.name value).1 ≠ (parseOption opt' other.name value').1

theorem names_nodup : (optionInfos.map OptionInfo.name).Nodup := by decide

theorem id_small : ∀ row ∈ optionInfos, row.id < 256 := by decide

/-- The only row that is not the element for its code. -/
theorem element_iff : ∀ row ∈ optionInfos, dhcpOptionInfo row.id = some row ↔ row.name ≠ "TIME_SERVER" := by decide

section Rows
variable {row other : OptionInfo} {name : String} {id : Nat}

theorem dhcpOptionInfo_some (element : dhcpOptionInfo id = some row) : row ∈ optionInfos ∧ row.id = id :=
  ⟨List.mem_reverse.mp (List.mem_of_find?_eq_some element),
    beq_iff_eq.mp (List.find?_some (p := fun info : OptionInfo => info.id == id) element)⟩

theorem row_of_name (member : row ∈ optionInfos) (member' : other ∈ optionInfos) (same : row.name = other.name) :
    row = other :=
  List.inj_on_of_nodup_map names_nodup member member' same

/-- **The search by name** finds the elements of the table. -/
theorem findOption_eq_some_iff : findOption name = some row ↔ row.name = name ∧ dhcpOptionInfo row.id = some row := by
  rw [findOption, Option.bind_eq_some_iff]
  constructor
  · rintro ⟨id, found, element⟩
    obtain ⟨member, rfl⟩ := dhcpOptionInfo_some element
    have named := List.find?_some (p := fun id => (dhcpOptionInfo id).any fun info => info.name == name) found
    rw [element, Option.any_some] at named
    exact ⟨beq_iff_eq.mp named, element⟩
  · rintro ⟨rfl, element⟩
    obtain ⟨member, -⟩ := dhcpOptionInfo_some element
    have here : ((dhcpOptionInfo row.id).any fun info => info.name == row.name) = true := by
      rw [element, Option.any_some]
      exact beq_self_eq_true row.name
    cases found : (List.range 256).find? fun id => (dhcpOptionInfo id).any fun info => info.name == row.name with
    | none => exact (List.find?_eq_none.mp found row.id (List.mem_range.mpr (id_small row member)) here).elim
    | some id =>
      -- names are distinct, so the element found is the row
      have passes := List.find?_some (p := fun id => (dhcpOptionInfo id).any fun info => info.name == row.name) found
      obtain ⟨info, element', named⟩ := (Option.any_eq_true ..).mp passes
      obtain rfl := row_of_name (dhcpOptionInfo_some element').1 member (beq_iff_eq.mp named)
      exact ⟨id, rfl, element'⟩

/-- The name of a row selects the row and its parser. -/
theorem selects_iff (member : row ∈ optionInfos) {f : OptionParser} :
    Selects row.name other f ↔ other = row ∧ row.f = some f ∧ row.name ≠ "TIME_SERVER" := by
  rw [← element_iff row member]
  constructor
  · rintro ⟨found, parser⟩
    obtain ⟨same, element⟩ := findOption_eq_some_iff.mp found
    obtain rfl := row_of_name (dhcpOptionInfo_some element).1 member same
    exact ⟨rfl, parser, element⟩
  · rintro ⟨rfl, parser, element⟩
    exact ⟨findOption_eq_some_iff.mpr ⟨rfl, element⟩, parser⟩

/-- An option that is stored has the code of an element with that name. -/
theorem parseOption_code {opt : DhcpOption} {value : List Char} (stored : (parseOption opt name value).1 ≠ 0#8) :
    ∃ info, findOption name = some info ∧ (parseOption opt name value).1 = BitVec.ofNat 8 info.id := by
  by_cases selected : ∃ info f, Selects name info f
  · obtain ⟨info, f, selects⟩ := selected
    refine ⟨info, selects.1, ?_⟩
    rw [parseOption_selects selects] at stored ⊢
    split at stored
    · exact (stored rfl).elim
    · rename_i counted
      rw [if_neg counted]
  · rw [parseOption_unsupported opt value fun info f selects => selected ⟨info, f, selects⟩] at stored
    exact (stored rfl).elim

/-- Elements with the same code in eight bits are the same. -/
theorem element_of_code {id' : Nat} (element : dhcpOptionInfo id = some row)
    (element' : dhcpOptionInfo id' = some other) (same : BitVec.ofNat 8 row.id = BitVec.ofNat 8 other.id) : row = other := by
  obtain ⟨member, rfl⟩ := dhcpOptionInfo_some element
  obtain ⟨member', rfl⟩ := dhcpOptionInfo_some element'
  have codes := congrArg BitVec.toNat same
  rw [BitVec.toNat_ofNat, BitVec.toNat_ofNat, Nat.mod_eq_of_lt (id_small row member),
    Nat.mod_eq_of_lt (id_small other member')] at codes
  exact Option.some.inj (element.symm.trans (codes ▸ element'))

/-- No two rows store options with one code. -/
theorem codes_distinct (member : row ∈ optionInfos) (member' : other ∈ optionInfos) (differs : other ≠ row)
    {opt opt' : DhcpOption} {value value' : List Char} (stored : (parseOption opt row.name value).1 ≠ 0#8)
    (stored' : (parseOption opt' other.name value').1 ≠ 0#8) :
    (parseOption opt row.name value).1 ≠ (parseOption opt' other.name value').1 := by
  obtain ⟨info, found, code⟩ := parseOption_code stored
  obtain ⟨info', found', code'⟩ := parseOption_code stored'
  obtain ⟨same, element⟩ := findOption_eq_some_iff.mp found
  obtain ⟨same', element'⟩ := findOption_eq_some_iff.mp found'
  intro collide
  obtain rfl := element_of_code element element' (code.symm.trans (collide.trans code'))
  exact differs (row_of_name member' member (same'.symm.trans same))

end Rows

/-- The row whose element is taken. -/
def timeServer : OptionInfo := ⟨4, "TIME_SERVER", some .ipList⟩

theorem timeServer_mem : timeServer ∈ optionInfos := by simp [optionInfos, timeServer]

theorem parseOption_timeServer (opt : DhcpOption) (value : List Char) :
    parseOption opt timeServer.name value = (0#8, opt) :=
  parseOption_unsupported opt value fun _ _ selects => ((selects_iff timeServer_mem).mp selects).2.2 rfl

theorem parseIpList_quad (a : BitVec 32) : parseIpList (quad a) = be32 a := by
  have parsed := ((parsesIps_iff a []).mpr (by simp [behindFirst, separated])).2
  rwa [joined, separated, List.flatMap_nil, List.append_nil, List.map_nil, List.flatMap_singleton] at parsed

theorem timeServer_unusable : ¬ RowUsable timeServer := by
  intro usable
  have length : (OptionParser.ipList.parse (quad 0#32)).length = 4 := by
    rw [OptionParser.parse, parseIpList_quad, be32_length]
  have stored := (usable.stores .ipList rfl blankOption (quad 0#32) (by rw [length]; decide) (by rw [length]; decide)).1
  rw [parseOption_timeServer] at stored
  exact absurd stored (by decide)

/-- **When a row of the table can be used**: when it is not the one for `TIME_SERVER`. -/
theorem row_usable_iff {row : OptionInfo} (member : row ∈ optionInfos) :
    RowUsable row ↔ row.name ≠ "TIME_SERVER" := by
  constructor
  · intro usable name
    obtain rfl : row = timeServer := row_of_name member timeServer_mem name
    exact timeServer_unusable usable
  · intro name
    constructor
    · intro f parser opt value some short
      exact parseOption_stored ((selects_iff member).mpr ⟨rfl, parser, name⟩) opt value some short
    · exact fun other member' differs opt opt' value value' => codes_distinct member member' differs

theorem host_name_usable : RowUsable ⟨12, "HOST_NAME", some .string⟩ :=
  (row_usable_iff (by simp [optionInfos])).mpr (by decide)

/-- The row is in the table and its parser reads an address, but the option is not supported. -/
theorem time_server_unsupported : timeServer ∈ optionInfos ∧ parseIpList "1.2.3.4".toList = [1#8, 2#8, 3#8, 4#8] ∧
    parseOption blankOption "TIME_SERVER" "1.2.3.4".toList = (0#8, blankOption) ∧ ¬ RowUsable timeServer := by
  have written : quad 0x01020304#32 = "1.2.3.4".toList := by decide
  refine ⟨timeServer_mem, ?_, parseOption_timeServer blankOption _, timeServer_unusable⟩
  rw [← written, parseIpList_quad]
  rfl

end DhcpServer
