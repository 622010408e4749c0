import DhcpServer.Lib.WriteLog
import DhcpServer.OptionValues

/-!
# What the list parsers store (`parse_ip_list`, `parse_byte_list`)

Both allocate a byte for each character of the text. An address takes four bytes and may be written with one
character. No other parser can run past its allocation.
-/

namespace DhcpServer
set_option autoImplicit false
open Lib

/-- The `memcpy` calls of the loop of `parse_ip_list`. It returns at the first token that is no address. -/
def ipStores (count : Nat) : List (List Char) → List Write
  | [] => []
  | s3 :: tokens =>
    match inetAton s3 with
    | none => []
    | some ip => ⟨count, be32 ip⟩ :: ipStores (count + 4) tokens

/-- The `memcpy` calls of the loop of `parse_byte_list`. -/
def byteStores (count : Nat) : List (List Char) → List Write
  | [] => []
  | s3 :: tokens => ⟨count, [BitVec.ofInt 8 (strtolAuto s3)]⟩ :: byteStores (count + 1) tokens

/-- What `parse_ip_list` stores through `*p`. -/
def parseIpListStores (s : List Char) : List Write := ipStores 0 (strtokAll firstDelims laterDelims s)

/-- What `parse_byte_list` stores through `*p`. -/
def parseByteListStores (s : List Char) : List Write := byteStores 0 (strtokAll firstDelims laterDelims s)

/-- Neither stores more than the `strlen(s)` bytes it allocates. -/
structure StoresInside (s : List Char) : Prop where
  ips : storedBytes (parseIpListStores s) ≤ s.length
  bytes : storedBytes (parseByteListStores s) ≤ s.length

/-- How many bytes a parser allocates. -/
def OptionParser.allocated : OptionParser → List Char → Nat
  | .byte, _ => 1
  | .byteList, s => s.length
  | .short, _ => 2
  | .shortList, s => s.length * 2
  | .long, _ => 4
  | .string, s => s.length + 1
  | .ip, _ => 4
  | .ipList, s => s.length * 4 / 4

/-- How many bytes a parser stores through `*p`, before it fails if it does; `strdup` stores the NUL as well. -/
def OptionParser.stored : OptionParser → List Char → Nat
  | .byteList, s => storedBytes (parseByteListStores s)
  | .ipList, s => storedBytes (parseIpListStores s)
  | .string, s => (parseString s).length + 1
  | f, s => (f.parse s).length

/-- What a parser stores has room in what it allocates. -/
def OptionParser.InsideAllocation (f : OptionParser) (s : List Char) : Prop := f.stored s ≤ f.allocated s

instance (f : OptionParser) (s : List Char) : Decidable (f.InsideAllocation s) := inferInstanceAs (Decidable (_ ≤ _))

/-- The addresses in front of the first token that is none. -/
def leadingIps (s : List Char) : List (List Char) :=
  (strtokAll firstDelims laterDelims s).takeWhile fun s3 => (inetAton s3).isSome

section Stores
variable {count : Nat} {tokens : List (List Char)} {s : List Char}

theorem consecutive_ipStores : Consecutive count (ipStores count tokens) := by
  induction tokens generalizing count with
  | nil => trivial
  | cons s3 tokens ih =>
    rw [ipStores]
    cases inetAton s3 with
    | none => trivial
    | some ip => exact ⟨rfl, ih⟩

theorem consecutive_byteStores : Consecutive count (byteStores count tokens) := by
  induction tokens generalizing count with
  | nil => trivial
  | cons s3 tokens ih => exact ⟨rfl, ih⟩

theorem bytes_ipStores {ips : List (BitVec 32)} (accepted : tokens.mapM inetAton = some ips) :
    (ipStores count tokens).flatMap Write.bytes = ips.flatMap be32 := by
  induction tokens generalizing count ips with
  | nil =>
    cases accepted
    rfl
  | cons s3 tokens ih =>
    rw [List.mapM_cons] at accepted
    obtain ⟨ip, first, others⟩ := Option.bind_eq_some_iff.mp accepted
    obtain ⟨rest, later, result⟩ := Option.bind_eq_some_iff.mp others
    obtain rfl := Option.some.inj result
    rw [ipStores, first]
    show be32 ip ++ (ipStores (count + 4) tokens).flatMap Write.bytes = be32 ip ++ rest.flatMap be32
    rw [ih later]

theorem bytes_byteStores : (byteStores count tokens).flatMap Write.bytes =
    tokens.map fun s3 => BitVec.ofInt 8 (strtolAuto s3) := by
  induction tokens generalizing count with
  | nil => rfl
  | cons s3 tokens ih =>
    rw [byteStores, List.flatMap_cons, ih]
    rfl

/-- **The parsers yield the bytes they store**, unless `parse_ip_list` fails. -/
theorem parsed_stored (s : List Char) :
    (parseIpList s = [] ∨ parseIpList s = (parseIpListStores s).flatMap Write.bytes) ∧
      parseByteList s = (parseByteListStores s).flatMap Write.bytes := by
  refine ⟨?_, bytes_byteStores.symm⟩
  rw [parseIpList]
  cases accepted : (strtokAll firstDelims laterDelims s).mapM inetAton with
  | none => exact Or.inl rfl
  | some ips => exact Or.inr (bytes_ipStores accepted).symm

/-- Both write from the start of the allocation on, so the number of bytes tells how far they get. -/
theorem storesInside_iff_writesBelow : StoresInside s ↔
    WritesBelow s.length (parseIpListStores s) ∧ WritesBelow s.length (parseByteListStores s) := by
  rw [parseIpListStores, parseByteListStores, writesBelow_iff_stored consecutive_ipStores (Nat.zero_le _),
    writesBelow_iff_stored consecutive_byteStores (Nat.zero_le _), Nat.zero_add, Nat.zero_add]
  exact ⟨fun inside => ⟨inside.ips, inside.bytes⟩, fun inside => ⟨inside.1, inside.2⟩⟩

/-! ## How much is stored -/

theorem storedBytes_ipStores :
    storedBytes (ipStores count tokens) = 4 * (tokens.takeWhile fun s3 => (inetAton s3).isSome).length := by
  induction tokens generalizing count with
  | nil => rfl
  | cons s3 tokens ih =>
    rw [ipStores, List.takeWhile_cons]
    cases inetAton s3 with
    | none => rfl
    | some ip =>
      dsimp only
      rw [storedBytes_cons, ih, be32_length, Option.isSome_some, if_pos rfl, List.length_cons]
      omega

theorem storedBytes_byteStores : storedBytes (byteStores count tokens) = tokens.length := by
  induction tokens generalizing count with
  | nil => rfl
  | cons s3 tokens ih =>
    rw [byteStores, storedBytes_cons, ih, List.length_cons, Nat.add_comm]
    rfl

theorem storedBytes_parseIpList : storedBytes (parseIpListStores s) = 4 * (leadingIps s).length := storedBytes_ipStores

/-- A token of a byte has a character at least. -/
theorem storedBytes_parseByteList : storedBytes (parseByteListStores s) ≤ s.length := by
  obtain ⟨nonempty, length⟩ := @strtokAll_length firstDelims s laterDelims
  have count := mul_length_le_flatten 1 fun token member => List.length_pos_iff.mpr (nonempty token member)
  rw [parseByteListStores, storedBytes_byteStores]
  omega

/-- Addresses of four characters or more have room, so dotted quads do. -/
theorem storesInside_of_long (long : ∀ ip ∈ leadingIps s, 4 ≤ ip.length) : StoresInside s := by
  have split := congrArg List.length (congrArg List.flatten
    (List.takeWhile_append_dropWhile (p := fun s3 => (inetAton s3).isSome) (l := strtokAll firstDelims laterDelims s)))
  have count := mul_length_le_flatten 4 long
  have length := (@strtokAll_length firstDelims s laterDelims).2
  rw [List.flatten_append, List.length_append] at split
  refine ⟨?_, storedBytes_parseByteList⟩
  rw [storedBytes_parseIpList]
  rw [leadingIps] at count ⊢
  omega

theorem length_parseShortList : (parseShortList s).length ≤ s.length * 2 := by
  obtain ⟨nonempty, length⟩ := @strtokAll_length firstDelims s laterDelims
  have count := mul_length_le_flatten 1 fun token member => List.length_pos_iff.mpr (nonempty token member)
  have pairs : ∀ tokens : List (List Char),
      (tokens.flatMap fun s3 => le16 (BitVec.ofInt 16 (strtolAuto s3))).length = tokens.length * 2 := by
    intro tokens
    induction tokens with
    | nil => rfl
    | cons s3 tokens ih =>
      rw [List.flatMap_cons, List.length_append, ih, List.length_cons]
      show 2 + _ = _
      omega
  rw [parseShortList, pairs]
  omega

/-- **Only lists of addresses can take more room than there is.** -/
theorem insideAllocation_iff (f : OptionParser) :
    f.InsideAllocation s ↔ (f = .ipList → 4 * (leadingIps s).length ≤ s.length) := by
  cases f with
  | byte => exact iff_of_true (Nat.le_refl 1) nofun
  | byteList => exact iff_of_true storedBytes_parseByteList nofun
  | short => exact iff_of_true (Nat.le_refl 2) nofun
  | shortList => exact iff_of_true length_parseShortList nofun
  | long => exact iff_of_true (Nat.le_refl 4) nofun
  | string => exact iff_of_true (Nat.le_of_eq (congrArg (· + 1) (List.length_map _))) nofun
  | ip =>
    refine iff_of_true ?_ nofun
    show (parseIp s).length ≤ 4
    rw [parseIp]
    cases inetAton s with
    | none => exact Nat.zero_le 4
    | some ip => exact Nat.le_of_eq (be32_length ip)
  | ipList =>
    have stored : OptionParser.ipList.stored s = 4 * (leadingIps s).length := storedBytes_parseIpList
    rw [OptionParser.InsideAllocation, stored, OptionParser.allocated, Nat.mul_div_cancel _ (by decide)]
    exact ⟨fun room _ => room, fun room => room rfl⟩

end Stores

/-- **When the list parsers stay within their allocation**: when the leading addresses take four characters
each on average, with all that is between them and behind. -/
theorem stores_inside_iff (s : List Char) : StoresInside s ↔ 4 * (leadingIps s).length ≤ s.length := by
  rw [← storedBytes_parseIpList]
  exact ⟨fun inside => inside.ips, fun room => ⟨room, storedBytes_parseByteList⟩⟩

/-- Three addresses of one character each are twelve bytes, for which five are allocated. -/
theorem stores_outside : storedBytes (parseIpListStores "1 2 3".toList) = 12 ∧ "1 2 3".toList.length = 5 ∧
    ¬ StoresInside "1 2 3".toList := by
  have stored : storedBytes (parseIpListStores "1 2 3".toList) = 12 := by decide
  refine ⟨stored, rfl, fun inside => ?_⟩
  have room := inside.ips
  rw [stored] at room
  exact absurd room (by decide)

end DhcpServer
