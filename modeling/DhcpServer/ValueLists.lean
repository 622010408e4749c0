import DhcpServer.OptionValues
import Mathlib.Data.List.Forall2

/-!
# Lists of values (`parse_ip_list`, `parse_byte_list`)

The first `strtok` call of the list parsers takes a comma or a blank for the end of a value, the later
ones a blank only. So a comma is part of every later value: an address with one is rejected, a byte is
read in front of it.
-/

namespace DhcpServer
set_option autoImplicit false
open Lib

/-- A nonempty string of commas and blanks. -/
structure Separator where
  text : List Char
  nonempty : text ≠ []
  marks : ∀ c ∈ text, c ∈ firstDelims

section Written
variable {α : Type}

/-- Values, each behind its separator. -/
def separated (written : α → List Char) (rest : List (Separator × α)) : List Char :=
  rest.flatMap fun item => item.1.text ++ written item.2

/-- The values of a nonempty list in text. -/
def joined (written : α → List Char) (value : α) (rest : List (Separator × α)) : List Char :=
  written value ++ separated written rest

/-- What the second `strtok` call goes on with: the text behind the character that ended the first value. -/
def behindFirst (written : α → List Char) (rest : List (Separator × α)) : List Char :=
  (separated written rest).drop 1

/-- A text of values and single marks, each value in front of a mark or the end. -/
inductive Listed (written : α → List Char) : List Char → Prop where
  | nil : Listed written []
  | mark {c : Char} {cs : List Char} (mark : c ∈ firstDelims) (rest : Listed written cs) : Listed written (c :: cs)
  | value (value : α) {cs : List Char} (ends : ∀ c ∈ cs.head?, c ∈ firstDelims) (rest : Listed written cs) :
      Listed written (written value ++ cs)

/-- A value, and behind it nothing or a comma. -/
def StartsWith (written : α → List Char) (value : α) (piece : List Char) : Prop :=
  ∃ behind, piece = written value ++ behind ∧ ∀ c ∈ behind.head?, c = ','

/-- How values are written: not at all empty, and without commas and blanks. -/
structure Solid (written : α → List Char) : Prop where
  nonempty : ∀ value, written value ≠ []
  unmarked : ∀ value, ∀ c ∈ written value, c ∉ firstDelims

variable {written : α → List Char} {value : α} {rest : List (Separator × α)} {cs : List Char}

theorem mem_firstDelims {c : Char} : c ∈ firstDelims ↔ c = ',' ∨ c = ' ' := by simp [firstDelims]

theorem mem_laterDelims {c : Char} : c ∈ laterDelims ↔ c = ' ' := by simp [laterDelims]

theorem Solid.unblank (solid : Solid written) (value : α) : ∀ c ∈ written value, c ∉ laterDelims :=
  fun c member blank => solid.unmarked value c member (mem_firstDelims.mpr (Or.inr (mem_laterDelims.mp blank)))

theorem Listed.marks {marks : List Char} (each : ∀ c ∈ marks, c ∈ firstDelims) (listed : Listed written cs) :
    Listed written (marks ++ cs) := by
  induction marks with
  | nil => exact listed
  | cons c marks ih =>
    obtain ⟨mark, others⟩ := List.forall_mem_cons.mp each
    exact .mark mark (ih others)

theorem separated_head (rest : List (Separator × α)) :
    ∀ c ∈ (separated written rest).head?, c ∈ firstDelims := by
  cases rest with
  | nil => exact nofun
  | cons item rest =>
    obtain ⟨d, ds, text⟩ := List.exists_cons_of_ne_nil item.1.nonempty
    have mark := item.1.marks d (by rw [text]; exact List.mem_cons_self)
    rw [separated, List.flatMap_cons, text]
    rintro c ⟨⟩
    exact mark

theorem separated_cons (item : Separator × α) (rest : List (Separator × α)) :
    separated written (item :: rest) = item.1.text ++ (written item.2 ++ separated written rest) := by
  rw [separated, List.flatMap_cons, List.append_assoc]
  rfl

/-- Of the first separator all but a character is left. -/
theorem behindFirst_cons (item : Separator × α) (rest : List (Separator × α)) :
    ∃ marks, (∀ c ∈ marks, c ∈ firstDelims) ∧
      behindFirst written (item :: rest) = marks ++ (written item.2 ++ separated written rest) := by
  obtain ⟨d, ds, text⟩ := List.exists_cons_of_ne_nil item.1.nonempty
  refine ⟨ds, fun c member => item.1.marks c (by rw [text]; exact List.mem_cons_of_mem d member), ?_⟩
  rw [behindFirst, separated_cons, text]
  rfl

theorem listed_separated (rest : List (Separator × α)) : Listed written (separated written rest) := by
  induction rest with
  | nil => exact .nil
  | cons item rest ih =>
    rw [separated_cons]
    exact (Listed.value item.2 (separated_head rest) ih).marks item.1.marks

theorem listed_behindFirst (rest : List (Separator × α)) : Listed written (behindFirst written rest) := by
  cases rest with
  | nil => exact .nil
  | cons item rest =>
    obtain ⟨marks, each, split⟩ := @behindFirst_cons _ written item rest
    rw [split]
    exact (Listed.value item.2 (separated_head rest) (listed_separated rest)).marks each

/-- The text of a list cut behind a run of characters other than blanks. -/
theorem Listed.dropWhile (solid : Solid written) (listed : Listed written cs) :
    Listed written (cs.dropWhile fun c => !laterDelims.contains c) := by
  induction listed with
  | nil => exact .nil
  | @mark c cs mark listed ih =>
    rw [List.dropWhile_cons]
    split
    · exact ih
    · exact .mark mark listed
  | value value _ _ ih =>
    have run : ∀ c ∈ written value, (!laterDelims.contains c) = true := fun c member => by
      simpa using solid.unblank value c member
    rwa [List.dropWhile_append_of_pos run]

/-- **A later token starts with a comma or with a value.** -/
theorem Listed.pieces (solid : Solid written) (listed : Listed written cs) :
    ∀ piece ∈ pieces laterDelims cs, piece.head? = some ',' ∨ ∃ value, StartsWith written value piece := by
  induction size : cs.length using Nat.strongRecOn generalizing cs with
  | ind n ih =>
    cases listed with
    | nil => simp
    | @mark c cs mark listed =>
      rw [List.length_cons] at size
      rcases mem_firstDelims.mp mark with rfl | rfl
      · have word := @pieces_word laterDelims [','] cs (List.cons_ne_nil _ []) (by simp [laterDelims])
        have less := (List.dropWhile_suffix (fun c => !laterDelims.contains c) (l := cs)).length_le
        rw [List.singleton_append] at word
        rw [word]
        exact List.forall_mem_cons.mpr ⟨Or.inl rfl, ih _ (by omega) (listed.dropWhile solid) rfl⟩
      · rw [pieces_delim (mem_laterDelims.mpr rfl)]
        exact ih _ (by omega) listed rfl
    | @value value cs ends listed =>
      have less := (List.dropWhile_suffix (fun c => !laterDelims.contains c) (l := cs)).length_le
      have positive := List.length_pos_iff.mpr (solid.nonempty value)
      rw [List.length_append] at size
      rw [pieces_word (solid.nonempty value) (solid.unblank value)]
      refine List.forall_mem_cons.mpr ⟨Or.inr ⟨value, _, rfl, ?_⟩, ih _ (by omega) (listed.dropWhile solid) rfl⟩
      cases cs with
      | nil => exact nofun
      | cons d cs =>
        rcases mem_firstDelims.mp (ends d rfl) with rfl | rfl
        · rintro c ⟨⟩
          rfl
        · exact nofun

/-- The tokens of a list parser: the first value, and the pieces of the text behind it. -/
theorem strtokAll_joined (solid : Solid written) (value : α) (rest : List (Separator × α)) :
    strtokAll firstDelims laterDelims (joined written value rest) =
      written value :: pieces laterDelims (behindFirst written rest) :=
  strtokAll_word (solid.nonempty value) (solid.unmarked value) (separated_head rest)

/-- Without a comma the first value is cut off. -/
theorem pieces_value (solid : Solid written) {marks : List Char} (each : ∀ c ∈ marks, c ∈ firstDelims)
    (blank : ',' ∉ marks ++ (written value ++ separated written rest)) :
    pieces laterDelims (marks ++ (written value ++ separated written rest)) =
      written value :: pieces laterDelims (separated written rest) := by
  have blanks : ∀ {c}, c ∈ firstDelims → c ≠ ',' → c ∈ laterDelims := fun mark other =>
    mem_laterDelims.mpr ((mem_firstDelims.mp mark).resolve_left other)
  rw [List.mem_append, List.mem_append, not_or, not_or] at blank
  obtain ⟨unmarked, -, unmarked'⟩ := blank
  rw [pieces_delims fun c member => blanks (each c member) (ne_of_mem_of_not_mem member unmarked)]
  apply pieces_word_delim (solid.nonempty value) (solid.unblank value)
  intro c head
  exact blanks (separated_head rest c head) (ne_of_mem_of_not_mem (List.mem_of_mem_head? head) unmarked')

theorem pieces_separated (solid : Solid written) (blank : ',' ∉ separated written rest) :
    pieces laterDelims (separated written rest) = rest.map fun item => written item.2 := by
  induction rest with
  | nil => exact pieces_nil
  | cons item rest ih =>
    rw [separated_cons] at blank ⊢
    have blank' : ',' ∉ separated written rest := fun member =>
      blank (List.mem_append_right _ (List.mem_append_right _ member))
    rw [pieces_value solid item.1.marks blank, ih blank', List.map_cons]

/-- **Without a comma the text is cut between the values.** -/
theorem pieces_behindFirst (solid : Solid written) (blank : ',' ∉ behindFirst written rest) :
    pieces laterDelims (behindFirst written rest) = rest.map fun item => written item.2 := by
  cases rest with
  | nil => exact pieces_nil
  | cons item rest =>
    obtain ⟨marks, each, split⟩ := @behindFirst_cons _ written item rest
    rw [split] at blank ⊢
    have blank' : ',' ∉ separated written rest := fun member =>
      blank (List.mem_append_right _ (List.mem_append_right _ member))
    rw [pieces_value solid each blank, pieces_separated solid blank', List.map_cons]

end Written

/-! ## Addresses -/

/-- `parse_ip_list` returns four bytes for each address, and they are the addresses in network order. -/
def ParsesIps (a : BitVec 32) (rest : List (Separator × BitVec 32)) : Prop :=
  (parseIpList (joined quad a rest)).length = 4 * (rest.length + 1) ∧
    parseIpList (joined quad a rest) = (a :: rest.map Prod.snd).flatMap be32

theorem solid_quad : Solid quad where
  nonempty := quad_ne_nil
  unmarked := by
    intro a c member mark
    rcases quad_chars a c member with digit | rfl
    · rcases mem_firstDelims.mp mark with rfl | rfl <;> cases digit
    · exact absurd mark (by decide)

/-- A token with a comma is no address. -/
theorem inetAton_comma {piece : List Char} (comma : ',' ∈ piece)
    (starts : piece.head? = some ',' ∨ ∃ a, StartsWith quad a piece) : inetAton piece = none := by
  rcases starts with head | ⟨a, behind, rfl, head⟩
  · obtain ⟨more, rfl⟩ := List.head?_eq_some_iff.mp head
    rfl
  · cases behind with
    | nil =>
      rw [List.append_nil] at comma
      exact absurd (solid_quad.unmarked a ',' comma) (by decide)
    | cons c behind =>
      obtain rfl := head c rfl
      rw [inetAton_quad]
      · rfl
      · rintro c ⟨⟩
        exact ⟨rfl, by decide, by decide⟩
      · rintro ⟨⟩

theorem mapM_quad (ips : List (BitVec 32)) : (ips.map quad).mapM inetAton = some ips := by
  induction ips with
  | nil => rfl
  | cons a ips ih => rw [List.map_cons, List.mapM_cons, inetAton_quad_alone, ih]; rfl

theorem length_flatMap_be32 (ips : List (BitVec 32)) : (ips.flatMap be32).length = 4 * ips.length := by
  induction ips with
  | nil => rfl
  | cons a ips ih =>
    rw [List.flatMap_cons, List.length_append, be32_length, ih, List.length_cons]
    omega

theorem mapM_none {α β : Type} {f : α → Option β} {l : List α} {x : α} (member : x ∈ l) (none : f x = none) :
    l.mapM f = Option.none := by
  induction l with
  | nil => cases member
  | cons y l ih =>
    rw [List.mapM_cons]
    rcases List.mem_cons.mp member with rfl | later
    · rw [none]; rfl
    · rw [ih later]
      cases f y <;> rfl

/-- A list of addresses is parsed when no comma stands behind the first mark. -/
theorem parsesIps_iff (a : BitVec 32) (rest : List (Separator × BitVec 32)) :
    ParsesIps a rest ↔ ',' ∉ behindFirst quad rest := by
  have tokens := strtokAll_joined solid_quad a rest
  constructor
  · rintro ⟨length, -⟩ comma
    obtain ⟨piece, token, inPiece⟩ := mem_pieces comma (show ',' ∉ laterDelims by decide)
    have rejected := inetAton_comma inPiece ((listed_behindFirst rest).pieces solid_quad piece token)
    rw [parseIpList, tokens, mapM_none (List.mem_cons_of_mem _ token) rejected] at length
    simp at length
  · intro blank
    have parsed : parseIpList (joined quad a rest) = (a :: rest.map Prod.snd).flatMap be32 := by
      have all : quad a :: (rest.map fun item => quad item.2) = (a :: rest.map Prod.snd).map quad := by simp
      rw [parseIpList, tokens, pieces_behindFirst solid_quad blank, all, mapM_quad]
    refine ⟨?_, parsed⟩
    rw [parsed, length_flatMap_be32, List.length_cons, List.length_map]

/-! ## Bytes -/

def decimalByte (value : Byte) : List Char := Nat.toDigits 10 value.toNat

/-- `parse_byte_list` returns the number of bytes, and they are the bytes. -/
def ParsesBytes (value : Byte) (rest : List (Separator × Byte)) : Prop :=
  (parseByteList (joined decimalByte value rest)).length = rest.length + 1 ∧
    parseByteList (joined decimalByte value rest) = value :: rest.map Prod.snd

/-- A token that is read as a byte: it starts with it, or with a comma when the byte is zero. -/
def Begins (value : Byte) (piece : List Char) : Prop :=
  (piece.head? = some ',' ∧ value = 0#8) ∨ StartsWith decimalByte value piece

theorem solid_decimalByte : Solid decimalByte where
  nonempty := fun _ => Nat.toDigits_ne_nil
  unmarked := by
    intro value c member mark
    have digit := digits_toDigits _ c member
    rcases mem_firstDelims.mp mark with rfl | rfl <;> cases digit

theorem byte_of_startsWith {value : Byte} {piece : List Char} (starts : StartsWith decimalByte value piece) :
    BitVec.ofInt 8 (strtolAuto piece) = value := by
  obtain ⟨behind, rfl, head⟩ := starts
  have ends : EndsNumber behind := by
    intro c first
    obtain rfl := head c first
    exact ⟨rfl, by decide, by decide⟩
  have bound := value.isLt
  rw [decimalByte, strtolAuto_toDigits ends, clampLong_eq (by omega) (by omega), BitVec.ofInt_natCast,
    BitVec.ofNat_toNat, BitVec.setWidth_eq]

theorem byte_of_comma {piece : List Char} (comma : piece.head? = some ',') :
    BitVec.ofInt 8 (strtolAuto piece) = 0#8 := by
  obtain ⟨more, rfl⟩ := List.head?_eq_some_iff.mp comma
  rfl

theorem byte_eq_iff {piece : List Char}
    (starts : piece.head? = some ',' ∨ ∃ value, StartsWith decimalByte value piece)
    (value : Byte) : BitVec.ofInt 8 (strtolAuto piece) = value ↔ Begins value piece := by
  constructor
  · intro read
    rcases starts with comma | ⟨value', starts⟩
    · exact Or.inl ⟨comma, (byte_of_comma comma ▸ read).symm⟩
    · obtain rfl := (byte_of_startsWith starts).symm.trans read
      exact Or.inr starts
  · rintro (⟨comma, rfl⟩ | starts)
    · exact byte_of_comma comma
    · exact byte_of_startsWith starts

theorem map_eq_iff {α β : Type} {f : β → α} {R : α → β → Prop} {l : List β}
    (reads : ∀ b ∈ l, ∀ a, f b = a ↔ R a b)
    {values : List α} : l.map f = values ↔ List.Forall₂ R values l := by
  induction l generalizing values with
  | nil => rw [List.forall₂_nil_right_iff, List.map_nil, eq_comm]
  | cons b l ih =>
    obtain ⟨first, others⟩ := List.forall_mem_cons.mp reads
    cases values with
    | nil => simp [List.forall₂_nil_left_iff]
    | cons a values => rw [List.map_cons, List.cons.injEq, List.forall₂_cons, first a, ih others]

/-- A list of bytes is parsed when the tokens behind the first one begin with the other bytes. -/
theorem parsesBytes_iff (value : Byte) (rest : List (Separator × Byte)) : ParsesBytes value rest ↔
    List.Forall₂ Begins (rest.map Prod.snd) (pieces laterDelims (behindFirst decimalByte rest)) := by
  have first : BitVec.ofInt 8 (strtolAuto (decimalByte value)) = value :=
    byte_of_startsWith ⟨[], (List.append_nil _).symm, nofun⟩
  have reads := fun piece token =>
    byte_eq_iff ((listed_behindFirst rest).pieces solid_decimalByte piece token)
  rw [ParsesBytes, parseByteList, strtokAll_joined solid_decimalByte, List.map_cons, first, List.cons_inj_right,
    map_eq_iff reads]
  constructor
  · exact And.right
  · intro begins
    have length := begins.length_eq
    rw [List.length_map] at length
    exact ⟨by rw [List.length_cons, List.length_map, length], begins⟩

/-- **When lists of values are parsed element by element**: addresses, when behind the mark that ends the
first there is no comma; bytes, when the tokens there begin with them. -/
theorem value_lists_iff (a : BitVec 32) (addresses : List (Separator × BitVec 32)) (value : Byte)
    (values : List (Separator × Byte)) :
    (ParsesIps a addresses ↔ ',' ∉ behindFirst quad addresses) ∧
      (ParsesBytes value values ↔
        List.Forall₂ Begins (values.map Prod.snd) (pieces laterDelims (behindFirst decimalByte values))) :=
  ⟨parsesIps_iff a addresses, parsesBytes_iff value values⟩

theorem commaBlank_marks : ∀ c ∈ [',', ' '], c ∈ firstDelims := fun _ member => member

theorem comma_marks : ∀ c ∈ [','], c ∈ firstDelims := by simp [firstDelims]

def comma : Separator := ⟨[','], List.cons_ne_nil _ _, comma_marks⟩

/-- The separator of `dhcp_config_file.txt`. -/
def commaBlank : Separator := ⟨[',', ' '], List.cons_ne_nil _ _, commaBlank_marks⟩

/-- A third address makes the parser fail, and a third byte behind a comma alone is lost. -/
theorem third_value_lost :
    joined quad 0x08080808#32 [(commaBlank, 0x08080404#32), (commaBlank, 0x01010101#32)] =
        "8.8.8.8, 8.8.4.4, 1.1.1.1".toList ∧
      parseIpList "8.8.8.8, 8.8.4.4, 1.1.1.1".toList = [] ∧
      ¬ ParsesIps 0x08080808#32 [(commaBlank, 0x08080404#32), (commaBlank, 0x01010101#32)] ∧
      joined decimalByte 1#8 [(comma, 2#8), (comma, 3#8)] = "1,2,3".toList ∧
      parseByteList "1,2,3".toList = [1#8, 2#8] ∧ ¬ ParsesBytes 1#8 [(comma, 2#8), (comma, 3#8)] := by
  have bytes : joined decimalByte 1#8 [(comma, 2#8), (comma, 3#8)] = "1,2,3".toList := by decide
  have read : parseByteList "1,2,3".toList = [1#8, 2#8] := by decide
  refine ⟨by decide, by decide +kernel, fun parses => ?_, bytes, read, fun parses => ?_⟩
  · exact (parsesIps_iff _ _).mp parses (by decide)
  · rw [ParsesBytes, bytes, read] at parses
    exact absurd parses.1 (by decide)

end DhcpServer
