import DhcpServer.Lib.Scanf
import DhcpServer.PrintMessage
import Mathlib.Data.List.GetD

/-!
# Hardware addresses in text (`parse_mac`, and as `print_dhcp_message` prints them)

`parse_mac` takes seventeen characters with colons in their places and two digits between them. These are the
texts that print six bytes, in capitals or not; and the bytes are the ones printed.
-/

namespace DhcpServer
set_option autoImplicit false
open Lib

/-- The places `parse_mac` looks at. -/
def colonPlaces : List Nat := [2, 5, 8, 11, 14]

def digitPlaces : List Nat := [0, 1, 3, 4, 6, 7, 9, 10, 12, 13, 15, 16]

/-- `parse_mac`: the six bytes, or none for a text it does not take. -/
def parseMac (s : List Char) : List Byte :=
  if s.length ≠ 17 || colonPlaces.any (fun i => s.getD i '\x00' != ':') then
    []
  else if digitPlaces.any (fun i => !isHexDigit (s.getD i '\x00')) then
    []
  else
    (List.range 6).map fun i => BitVec.ofInt 8 (strtolHex (s.drop (3 * i)))

/-- Six pairs of digits with colons between them. -/
structure IsMac (s : List Char) : Prop where
  length : s.length = 17
  colon : ∀ i < 5, s.getD (3 * i + 2) '\x00' = ':'
  digits : ∀ i < 6, isHexDigit (s.getD (3 * i) '\x00') = true ∧ isHexDigit (s.getD (3 * i + 1) '\x00') = true

section Parsing
variable {s : List Char} {bs : List Byte} {upper : Bool} {i : Nat}

/-- The byte of the `i`th pair. -/
def pairAt (s : List Char) (i : Nat) : Byte := pairValue (s.getD (3 * i) '\x00') (s.getD (3 * i + 1) '\x00')

/-- `strtol` reads the pair, and stops at the colon or the end. -/
theorem IsMac.strtol (mac : IsMac s) (inside : i < 6) : BitVec.ofInt 8 (strtolHex (s.drop (3 * i))) = pairAt s i := by
  have length := mac.length
  obtain ⟨high, low⟩ := mac.digits i inside
  have first : 3 * i < s.length := by omega
  have second : 3 * i + 1 < s.length := by omega
  have pair : s.drop (3 * i) = s.getD (3 * i) '\x00' :: s.getD (3 * i + 1) '\x00' :: s.drop (3 * i + 2) := by
    rw [List.drop_eq_getElem_cons first, List.drop_eq_getElem_cons second, List.getD_eq_getElem _ _ first,
      List.getD_eq_getElem _ _ second]
  have ends : ∀ c ∈ (s.drop (3 * i + 2)).head?, isHexDigit c = false := by
    intro c there
    rw [List.head?_drop] at there
    obtain ⟨within, rfl⟩ := List.getElem?_eq_some_iff.mp there
    have colon := mac.colon i (by omega)
    rw [List.getD_eq_getElem _ _ within] at colon
    rw [colon]
    decide
  rw [pair, strtolHex_pair high low ends, BitVec.ofInt_natCast]
  rfl

theorem parseMac_of_isMac (mac : IsMac s) : parseMac s = (List.range 6).map (pairAt s) := by
  have colons : colonPlaces.any (fun i => s.getD i '\x00' != ':') = false := by
    refine List.any_eq_false.mpr fun i member => ?_
    have place : ∀ i ∈ colonPlaces, ∃ k < 5, i = 3 * k + 2 := by decide
    obtain ⟨k, inside, rfl⟩ := place i member
    simpa using mac.colon k inside
  have digits : digitPlaces.any (fun i => !isHexDigit (s.getD i '\x00')) = false := by
    refine List.any_eq_false.mpr fun i member => ?_
    have place : ∀ i ∈ digitPlaces, ∃ k < 6, i = 3 * k ∨ i = 3 * k + 1 := by decide
    obtain ⟨k, inside, rfl | rfl⟩ := place i member
    · simpa using (mac.digits k inside).1
    · simpa using (mac.digits k inside).2
  rw [parseMac, colons, digits, if_neg (by simp [mac.length]), if_neg Bool.false_ne_true]
  exact List.map_congr_left fun i member => mac.strtol (List.mem_range.mp member)

theorem isMac_of_parseMac (taken : parseMac s ≠ []) : IsMac s := by
  unfold parseMac at taken
  split at taken
  · exact (taken rfl).elim
  · rename_i shape
    split at taken
    · exact (taken rfl).elim
    · rename_i digits
      simp only [Bool.or_eq_true, decide_eq_true_eq, not_or, not_not, Bool.not_eq_true] at shape digits
      obtain ⟨length, colons⟩ := shape
      refine ⟨length, fun i inside => ?_, fun i inside => ⟨?_, ?_⟩⟩
      · have place : ∀ i < 5, 3 * i + 2 ∈ colonPlaces := by decide
        simpa using List.any_eq_false.mp colons _ (place i inside)
      · have place : ∀ i < 6, 3 * i ∈ digitPlaces := by decide
        simpa using List.any_eq_false.mp digits _ (place i inside)
      · have place : ∀ i < 6, 3 * i + 1 ∈ digitPlaces := by decide
        simpa using List.any_eq_false.mp digits _ (place i inside)

end Parsing

/-! ## Printed addresses -/

section Printing
variable {s : List Char} {bs : List Byte} {upper : Bool} {i : Nat}

theorem macText_length (nonempty : bs ≠ []) : (macText upper bs).length + 1 = 3 * bs.length := by
  induction bs with
  | nil => exact (nonempty rfl).elim
  | cons b rest ih =>
    cases rest with
    | nil => rfl
    | cons c rest =>
      have shorter := ih (List.cons_ne_nil c rest)
      simp only [macText, hexByte, List.cons_append, List.nil_append, List.length_cons] at shorter ⊢
      omega

/-- The characters in the places of a byte. -/
theorem macText_getD (inside : i < bs.length) :
    (macText upper bs).getD (3 * i) '\x00' = hexDigit upper ((bs.getD i 0#8).toNat / 16) ∧
    (macText upper bs).getD (3 * i + 1) '\x00' = hexDigit upper ((bs.getD i 0#8).toNat % 16) ∧
    (i + 1 < bs.length → (macText upper bs).getD (3 * i + 2) '\x00' = ':') := by
  induction bs generalizing i with
  | nil => exact (Nat.not_lt_zero i inside).elim
  | cons b rest ih =>
    cases i with
    | zero =>
      cases rest with
      | nil => exact ⟨rfl, rfl, fun more => absurd more (Nat.lt_irrefl 1)⟩
      | cons c rest => exact ⟨rfl, rfl, fun _ => rfl⟩
    | succ i =>
      cases rest with
      | nil => exact absurd inside (Nat.not_lt_of_le (Nat.le_add_left 1 i))
      | cons c rest =>
        obtain ⟨first, second, colon⟩ := @ih i (Nat.lt_of_succ_lt_succ inside)
        exact ⟨first, second, fun more => colon (Nat.lt_of_succ_lt_succ more)⟩

theorem isMac_of_places (length : s.length = 17) (six : bs.length = 6)
    (first : ∀ i < 6, (s.getD (3 * i) '\x00').toUpper = hexDigit true ((bs.getD i 0#8).toNat / 16))
    (second : ∀ i < 6, (s.getD (3 * i + 1) '\x00').toUpper = hexDigit true ((bs.getD i 0#8).toNat % 16))
    (colon : ∀ i < 5, (s.getD (3 * i + 2) '\x00').toUpper = ':') : IsMac s ∧ (List.range 6).map (pairAt s) = bs := by
  have high (i : Nat) (inside : i < 6) := hexValue_of_toUpper (by have := (bs.getD i 0#8).isLt; omega) (first i inside)
  have low (i : Nat) (inside : i < 6) := hexValue_of_toUpper (by omega) (second i inside)
  refine ⟨⟨length, fun i inside => colon_of_toUpper (colon i inside), fun i inside =>
    ⟨(high i inside).1, (low i inside).1⟩⟩, ?_⟩
  refine List.ext_getElem (by rw [List.length_map, List.length_range, six]) fun i inside inside' => ?_
  rw [six] at inside'
  rw [List.getElem_map, List.getElem_range, pairAt, pairValue, (high i inside').2, (low i inside').2, Nat.div_add_mod,
    BitVec.ofNat_toNat, BitVec.setWidth_eq, List.getD_eq_getElem]

/-- Texts of seventeen characters are equal when they are in the places of six bytes. -/
theorem eq_of_places {t t' : List Char} (length : t.length = 17) (length' : t'.length = 17)
    (first : ∀ i < 6, t.getD (3 * i) '\x00' = t'.getD (3 * i) '\x00')
    (second : ∀ i < 6, t.getD (3 * i + 1) '\x00' = t'.getD (3 * i + 1) '\x00')
    (colon : ∀ i < 5, t.getD (3 * i + 2) '\x00' = t'.getD (3 * i + 2) '\x00') : t = t' := by
  refine List.ext_getElem (length.trans length'.symm) fun k inside inside' => ?_
  rw [← List.getD_eq_getElem _ '\x00' inside, ← List.getD_eq_getElem _ '\x00' inside']
  rw [length] at inside
  obtain ⟨i, rfl | rfl | rfl⟩ : ∃ i, k = 3 * i ∨ k = 3 * i + 1 ∨ k = 3 * i + 2 := ⟨k / 3, by omega⟩
  · exact first i (by omega)
  · exact second i (by omega)
  · exact colon i (by omega)

/-- The digits of a pair, in capitals, are those of its byte. -/
theorem toUpper_pairAt (mac : IsMac s) (inside : i < 6) :
    (s.getD (3 * i) '\x00').toUpper = hexDigit true ((pairAt s i).toNat / 16) ∧
      (s.getD (3 * i + 1) '\x00').toUpper = hexDigit true ((pairAt s i).toNat % 16) := by
  obtain ⟨high, low⟩ := mac.digits i inside
  obtain ⟨-, small, printed⟩ := hexDigits_value _ (mem_hexDigits high)
  obtain ⟨-, small', printed'⟩ := hexDigits_value _ (mem_hexDigits low)
  have value : (pairAt s i).toNat =
      16 * hexValue (s.getD (3 * i) '\x00') + hexValue (s.getD (3 * i + 1) '\x00') := by
    rw [pairAt, pairValue, BitVec.toNat_ofNat]
    omega
  rw [value, ← printed, ← printed']
  constructor <;> congr 1 <;> omega

/-- **`parse_mac` takes the texts that print six bytes**, in capitals or not, for these bytes. -/
theorem parseMac_eq_iff (six : bs.length = 6) : parseMac s = bs ↔ s.map Char.toUpper = macText true bs := by
  have nonempty : bs ≠ [] := List.ne_nil_of_length_pos (by omega)
  have length := @macText_length bs true nonempty
  have places (i : Nat) (inside : i < 6) := @macText_getD bs true i (by omega)
  constructor
  · rintro rfl
    have mac := isMac_of_parseMac nonempty
    have bytes (i : Nat) (inside : i < 6) : (parseMac s).getD i 0#8 = pairAt s i := by
      rw [parseMac_of_isMac mac, List.getD_eq_getElem _ _ (by simpa using inside), List.getElem_map, List.getElem_range]
    have upper (k : Nat) : (s.map Char.toUpper).getD k '\x00' = (s.getD k '\x00').toUpper :=
      List.getD_map s '\x00' Char.toUpper
    refine eq_of_places (by rw [List.length_map, mac.length]) (by omega) (fun i inside => ?_) (fun i inside => ?_)
      fun i inside => ?_
    · rw [upper, (places i inside).1, bytes i inside, (toUpper_pairAt mac inside).1]
    · rw [upper, (places i inside).2.1, bytes i inside, (toUpper_pairAt mac inside).2]
    · rw [upper, (places i (by omega)).2.2 (by omega), mac.colon i inside]
      rfl
  · intro same
    have upper (k : Nat) : (s.getD k '\x00').toUpper = (macText true bs).getD k '\x00' := by
      rw [← same]
      exact (List.getD_map s '\x00' Char.toUpper).symm
    have long : s.length = 17 := by
      rw [← List.length_map (f := Char.toUpper), same]
      omega
    obtain ⟨mac, bytes⟩ := isMac_of_places long six (fun i inside => (upper _).trans (places i inside).1)
      (fun i inside => (upper _).trans (places i inside).2.1)
      fun i inside => (upper _).trans ((places i (by omega)).2.2 (by omega))
    rw [parseMac_of_isMac mac, bytes]

theorem parseMac_length (s : List Char) : parseMac s = [] ∨ (parseMac s).length = 6 := by
  by_cases taken : parseMac s = []
  · exact Or.inl taken
  · rw [parseMac_of_isMac (isMac_of_parseMac taken)]
    exact Or.inr (by rw [List.length_map, List.length_range])

theorem parseMac_of_length (other : s.length ≠ 17) : parseMac s = [] := by
  by_contra taken
  exact other (isMac_of_parseMac taken).length

/-- Small letters are taken as well. -/
theorem parseMac_macText (six : bs.length = 6) : parseMac (macText upper bs) = bs := by
  have nonempty : bs ≠ [] := List.ne_nil_of_length_pos (by omega)
  have length := @macText_length bs upper nonempty
  have places (i : Nat) (inside : i < 6) := @macText_getD bs upper i (by omega)
  have capital : ∀ upper, ∀ v < 16, (hexDigit upper v).toUpper = hexDigit true v := by decide
  have small (i : Nat) : (bs.getD i 0#8).toNat / 16 < 16 := by
    have := (bs.getD i 0#8).isLt
    omega
  obtain ⟨mac, bytes⟩ := @isMac_of_places (macText upper bs) bs (by omega) six
    (fun i inside => by rw [(places i inside).1, capital _ _ (small i)])
    (fun i inside => by rw [(places i inside).2.1, capital _ _ (by omega)])
    fun i inside => by rw [(places i (by omega)).2.2 (by omega)]; rfl
  rw [parseMac_of_isMac mac, bytes]

/-- The loop over `chaddr` from some byte on. -/
theorem chaddrText_from {n k : Nat} (within : k + bs.length ≤ n) :
    ((bs.zipIdx k).flatMap fun x => hexByte true x.1 ++ if x.2 + 1 < n then [':'] else []) =
      macText true bs ++ if bs ≠ [] ∧ k + bs.length < n then [':'] else [] := by
  induction bs generalizing k with
  | nil => rfl
  | cons b rest ih =>
    cases rest with
    | nil => simp [macText]
    | cons c rest =>
      have later := @ih (k + 1) (by rw [List.length_cons] at within; omega)
      have more : k + 1 < n := by
        rw [List.length_cons, List.length_cons] at within
        omega
      have last : k + 1 + (rest.length + 1) = k + (rest.length + 1 + 1) := by omega
      rw [List.zipIdx_cons, List.flatMap_cons, later]
      simp [macText, more, last]

/-- The loop over `chaddr`: it prints a text of `parse_mac` when `hlen` is six, and only then. -/
theorem parseMac_chaddrText (m : DhcpMessage) :
    parseMac (chaddrText m.hlen (m.slice DhcpMessage.chaddrOffset (min m.hlen.toNat DhcpMessage.chaddrSize))) =
      if m.hlen.toNat = 6 then m.slice DhcpMessage.chaddrOffset 6 else [] := by
  have size : DhcpMessage.chaddrSize = 16 := rfl
  generalize m.hlen = hlen
  have printed : chaddrText hlen (m.slice DhcpMessage.chaddrOffset (min hlen.toNat DhcpMessage.chaddrSize)) = _ :=
    @chaddrText_from (m.slice DhcpMessage.chaddrOffset (min hlen.toNat DhcpMessage.chaddrSize)) hlen.toNat 0
      (by rw [Memory.slice_length]; omega)
  rw [printed]
  by_cases six : hlen.toNat = 6
  · rw [if_pos six, six, if_neg (by rw [Memory.slice_length]; exact fun more => absurd more.2 (by decide)),
      List.append_nil]
    exact parseMac_macText (Memory.slice_length _ _ _)
  · rw [if_neg six]
    refine parseMac_of_length ?_
    by_cases none : hlen.toNat = 0
    · rw [none]
      exact (by decide : 0 ≠ 17)
    · have nonempty : m.slice DhcpMessage.chaddrOffset (min hlen.toNat DhcpMessage.chaddrSize) ≠ [] := by
        refine List.ne_nil_of_length_pos ?_
        rw [Memory.slice_length]
        omega
      have length := @macText_length _ true nonempty
      rw [Memory.slice_length] at length
      rw [List.length_append]
      split
      · rename_i more
        rw [Memory.slice_length] at more
        simp only [List.length_singleton]
        omega
      · simp only [List.length_nil]
        omega

theorem newline_hexByte (b : Byte) : '\n' ∉ hexByte upper b := by
  have digit : ∀ upper, ∀ v < 16, '\n' ≠ hexDigit upper v := by decide
  have bound := b.isLt
  intro member
  rcases List.mem_cons.mp member with same | member
  · exact digit upper _ (by omega) same
  · exact digit upper _ (by omega) (List.mem_singleton.mp member)

theorem newline_macText : '\n' ∉ macText upper bs := by
  induction bs with
  | nil => exact List.not_mem_nil
  | cons b rest ih =>
    cases rest with
    | nil => exact newline_hexByte b
    | cons c rest =>
      rw [macText, List.mem_append, List.mem_cons]
      rintro (here | same | later)
      · exact newline_hexByte b here
      · exact absurd same (by decide)
      · exact ih later

theorem newline_chaddrText (hlen : Byte) (chaddr : List Byte) : '\n' ∉ chaddrText hlen chaddr := by
  rw [chaddrText, List.mem_flatMap]
  rintro ⟨⟨b, i⟩, -, member⟩
  rcases List.mem_append.mp member with here | colon
  · exact newline_hexByte b here
  · split at colon
    · exact absurd (List.mem_singleton.mp colon) (by decide)
    · cases colon

theorem headerLines_ends (msg : DhcpMessage) : ∃ lines, headerLines msg = lines ++ ['\n'] :=
  ⟨_, (List.append_assoc _ _ _).symm⟩

/-- The lines of a printout down to `chaddr`. -/
theorem run_printDhcpMessage (m : DhcpMessage) : ∃ header rest, printDhcpMessage.run m =
    "\n\n\n\n\n========== DHCP Message ==========\n".toList ++
      (titleLine (getDhcpMessageType m.options DhcpMessage.optionsSize)).run m ++ (header ++ ['\n']) ++
      "Client MAC address (chaddr): ".toList ++
      chaddrText m.hlen (m.slice DhcpMessage.chaddrOffset (min m.hlen.toNat DhcpMessage.chaddrSize)) ++
      '\n' :: rest := by
  have hlen : DhcpMessage.hlen (Memory.zero.write 0 (m.slice 0 DhcpMessage.chaddrOffset)) = m.hlen := by
    have same := Memory.slice_write_same Memory.zero 0 (m.slice 0 DhcpMessage.chaddrOffset)
    rw [Memory.slice_length] at same
    exact @Memory.byte_of_slice_eq m (Memory.zero.write 0 (m.slice 0 DhcpMessage.chaddrOffset)) 0 _ 2 same (by decide)
  obtain ⟨lines, ends⟩ := headerLines_ends (Memory.zero.write 0 (m.slice 0 DhcpMessage.chaddrOffset))
  refine ⟨numberLine "DHCP Message type: " (getDhcpMessageType m.options DhcpMessage.optionsSize).toNat ++ lines,
    "Server name (sname): ".toList ++
      rawText ((ReadProg.untilByte 0#8 addressSpace DhcpMessage.snameOffset).run m) ++ ['\n'] ++
      "Boot file name (file): ".toList ++
      rawText ((ReadProg.untilByte 0#8 addressSpace DhcpMessage.fileOffset).run m) ++ ['\n'] ++
      "Options:\n".toList ++
      optionLines ((ReadProg.untilByte 0xFF#8 DhcpMessage.optionsSize DhcpMessage.optionsOffset).run m) ++
      "==================================\n".toList, ?_⟩
  simp only [printDhcpMessage, ReadProg.run_bind, ReadProg.run_pure, ReadProg.run_based, ReadProg.run_bytes, hlen,
    ends, List.append_assoc, List.singleton_append]
  rfl

/-- The title line of a message type that has one. -/
theorem run_titleLine {messageType : Byte} {title : String} (titled : titleText messageType = some title)
    (m : DhcpMessage) : (titleLine messageType).run m =
      title.toList ++ macText false (m.slice DhcpMessage.chaddrOffset 6) ++ ['\n'] := by
  simp only [titleLine, titled, ReadProg.run_bind, ReadProg.run_pure, ReadProg.run_bytes]

end Printing

theorem endsLine_title : EndsLine "\n\n\n\n\n========== DHCP Message ==========\n".toList :=
  @endsLine_concat "\n\n\n\n\n========== DHCP Message ==========".toList

/-- A line of a printout that starts with a label, and the text behind the label. -/
def PrintsLine (m : DhcpMessage) (label : String) (text : List Char) : Prop :=
  '\n' ∉ text ∧ ∃ front rest, EndsLine front ∧
    printDhcpMessage.run m = front ++ label.toList ++ text ++ '\n' :: rest

/-- **`parse_mac` and the printouts.** It takes the texts that print six bytes, in capitals or not, for these
bytes, and nothing else. So it reads back the address in the title line of every printout, and the one in the
line for `chaddr` when `hlen` is six, but never when it is not. -/
theorem mac_text_round_trip :
    (∀ s, parseMac s = [] ∨ (parseMac s).length = 6) ∧
    (∀ s bs, bs.length = 6 → (parseMac s = bs ↔ s.map Char.toUpper = macText true bs)) ∧
    ∀ m : DhcpMessage,
      (∀ title, titleText (getDhcpMessageType m.options DhcpMessage.optionsSize) = some title →
        ∃ text, PrintsLine m title text ∧ parseMac text = m.slice DhcpMessage.chaddrOffset 6) ∧
      ∃ text, PrintsLine m "Client MAC address (chaddr): " text ∧
        parseMac text = if m.hlen.toNat = 6 then m.slice DhcpMessage.chaddrOffset 6 else [] := by
  refine ⟨parseMac_length, fun s bs six => parseMac_eq_iff six, fun m => ?_⟩
  obtain ⟨header, rest, printed⟩ := run_printDhcpMessage m
  constructor
  · intro title titled
    refine ⟨macText false (m.slice DhcpMessage.chaddrOffset 6), ⟨newline_macText, ?_⟩,
      parseMac_macText (Memory.slice_length _ _ _)⟩
    rw [run_titleLine titled] at printed
    simp only [List.append_assoc, List.cons_append] at printed
    simp only [List.append_assoc]
    exact ⟨"\n\n\n\n\n========== DHCP Message ==========\n".toList, _, endsLine_title, printed⟩
  · refine ⟨_, ⟨newline_chaddrText _ _, _, rest, ?_, printed⟩, parseMac_chaddrText m⟩
    rw [← List.append_assoc]
    exact endsLine_concat

end DhcpServer
