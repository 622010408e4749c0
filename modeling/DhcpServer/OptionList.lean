import DhcpServer.Lib.ReadProg
import DhcpServer.Options

/-!
# Option lists (`append_option`, `parse_options_to_list`, `serialize_option_list`)

The parser is a `ReadProg` over its buffer, the serializer a writer into one. Between them
stands `OptionChain`, the options that lie one behind the other up to an end mark: what the
parser accepts, and what the serializer lays down.
-/

namespace DhcpServer
set_option autoImplicit false
open Lib

/-- `struct dhcp_option`: the `len` bytes of `data` that are in use. -/
@[ext] structure DhcpOption where
  id : Byte
  data : List Byte
  bound : data.length < 256

instance : DecidableEq DhcpOption := fun a b =>
  decidable_of_iff (a.id = b.id ∧ a.data = b.data) DhcpOption.ext_iff.symm

namespace DhcpOption

def len (opt : DhcpOption) : Byte := BitVec.ofNat 8 opt.data.length

/-- The first `2 + len` bytes of the struct. -/
def bytes (opt : DhcpOption) : List Byte := opt.id :: opt.len :: opt.data

/-- `2 + opt->len`, as a `size_t`. -/
def size (opt : DhcpOption) : BitVec 64 := 2#64 + opt.len.setWidth 64

@[simp] theorem len_toNat (opt : DhcpOption) : opt.len.toNat = opt.data.length := by
  rw [len, BitVec.toNat_ofNat, Nat.mod_eq_of_lt opt.bound]

@[simp] theorem bytes_length (opt : DhcpOption) : opt.bytes.length = 2 + opt.data.length := by
  rw [bytes, List.length_cons, List.length_cons, Nat.add_comm 2]

@[simp] theorem size_toNat (opt : DhcpOption) : opt.size.toNat = 2 + opt.data.length := by
  have bound := opt.bound
  rw [size, BitVec.toNat_add, BitVec.toNat_setWidth, len_toNat, BitVec.toNat_ofNat]
  omega

end DhcpOption

theorem no_data_bound : ([] : List Byte).length < 256 := by decide

/-! ## The parser -/

/-- `append_option(list, opt)`: a copy of `2 + opt->len` bytes behind the list. -/
def appendOption (list : List DhcpOption) (opt : Nat) : ReadProg (List DhcpOption) := do
  let len ← .byte (opt + 1)
  let id ← .byte opt
  let data ← .bytes (opt + 2) len.toNat
  pure (list ++ [⟨id, data.val, by rw [data.property]; exact len.isLt⟩])

/-- The test behind the loop. -/
def parseEnd (len opt : Nat) : ReadProg Bool := do
  if opt < len then
    let id ← .byte opt
    pure (id == OptionCode.endMark)
  else
    pure false

/-- One turn of the `while` loop, with `opt` and the list; `.error` leaves the function. -/
def parseTurn (len : Nat) (state : Nat × List DhcpOption) :
    ReadProg (Except (Bool × List DhcpOption) (Nat × List DhcpOption)) := do
  let (opt, list) := state
  if opt < len then
    let id ← .byte opt
    if id ≠ OptionCode.endMark then
      let optLen ← .byte (opt + 1)
      if opt + 2 + optLen.toNat ≥ len then
        pure (.error (false, list))
      else
        let list ← appendOption list opt
        let optLen ← .byte (opt + 1)
        pure (.ok (opt + 2 + optLen.toNat, list))
    else
      let accepted ← parseEnd len opt
      pure (.error (accepted, list))
  else
    let accepted ← parseEnd len opt
    pure (.error (accepted, list))

/-- `parse_options_to_list`: what it returns, and the list as it leaves it. Every turn of its loop
moves `opt` forward, so `len + 1` turns are enough. -/
def parseOptionsToList (list : List DhcpOption) (len : BitVec 64) : ReadProg (Bool × List DhcpOption) := do
  if len < 4#64 then
    pure (false, list)
  else
    let cookie ← .bytes 0 4
    if cookie.val ≠ optionMagic then
      pure (false, list)
    else
      .loop (parseTurn len.toNat) (false, list) (len.toNat + 1) (4, list)

/-! ## The serializer -/

/-- The loop of `serialize_option_list` at cursor `p` with `len` bytes left, and what follows it. -/
def serializeFrom : List DhcpOption → Nat → BitVec 64 → Memory → Nat × Memory
  | [], p, len, buf => if len < 1#64 then (0, buf) else (p + 1, buf.write p [OptionCode.endMark])
  | opt :: rest, p, len, buf =>
    if len ≤ opt.size then
      (0, buf)
    else
      serializeFrom rest (p + opt.size.toNat) (len - opt.size) (buf.write p opt.bytes)

/-- `serialize_option_list`: what it returns, and the buffer as it leaves it. -/
def serializeOptionList (list : List DhcpOption) (buf : Memory) (len : BitVec 64) : Nat × Memory :=
  if len < 4#64 then (0, buf) else serializeFrom list 4 (len - 4#64) (buf.write 0 optionMagic)

/-! ## Chains of options -/

/-- The option whose `id` lies at offset `i`. -/
def optionAt (m : Memory) (i : Nat) : DhcpOption where
  id := m i
  data := m.slice (i + 2) (m (i + 1)).toNat
  bound := by
    rw [Memory.slice_length]
    exact (m (i + 1)).isLt

/-- The options from offset `i` on, each behind the one before, up to an end mark below `len`. -/
inductive OptionChain (m : Memory) (len : Nat) : Nat → List DhcpOption → Prop where
  | ended {i : Nat} : i < len → m i = OptionCode.endMark → OptionChain m len i []
  | next {i : Nat} {rest : List DhcpOption} : m i ≠ OptionCode.endMark →
      i + 2 + (m (i + 1)).toNat < len → OptionChain m len (i + 2 + (m (i + 1)).toNat) rest →
      OptionChain m len i (optionAt m i :: rest)

section Parser
variable {m : Memory} {len i fuel : Nat} {list options : List DhcpOption} {stuck : Bool × List DhcpOption}

@[simp] theorem run_appendOption : (appendOption list i).run m = list ++ [optionAt m i] := by
  simp [appendOption, optionAt]

@[simp] theorem run_parseEnd : (parseEnd len i).run m = (decide (i < len) && m i == OptionCode.endMark) := by
  by_cases within : i < len <;> simp [parseEnd, within]

/-- A turn at an option that ends before the end of the buffer. -/
theorem run_parseTurn_next (unended : m i ≠ OptionCode.endMark) (fits : i + 2 + (m (i + 1)).toNat < len) :
    (parseTurn len (i, list)).run m = .ok (i + 2 + (m (i + 1)).toNat, list ++ [optionAt m i]) := by
  have within : i < len := by omega
  simp [parseTurn, within, unended, Nat.not_le.mpr fits]

/-- Any other turn leaves the function. -/
theorem run_parseTurn_stop (stops : m i = OptionCode.endMark ∨ len ≤ i + 2 + (m (i + 1)).toNat) :
    (parseTurn len (i, list)).run m = .error (decide (i < len) && m i == OptionCode.endMark, list) := by
  by_cases within : i < len
  · by_cases ended : m i = OptionCode.endMark
    · simp [parseTurn, within, ended]
    · simp [parseTurn, within, ended, stops.resolve_left ended]
  · simp [parseTurn, within]

theorem turn_cases (m : Memory) (len i : Nat) :
    (m i ≠ OptionCode.endMark ∧ i + 2 + (m (i + 1)).toNat < len) ∨
      (m i = OptionCode.endMark ∨ len ≤ i + 2 + (m (i + 1)).toNat) := by
  by_cases ended : m i = OptionCode.endMark
  · exact Or.inr (Or.inl ended)
  · by_cases fits : i + 2 + (m (i + 1)).toNat < len
    · exact Or.inl ⟨ended, fits⟩
    · exact Or.inr (Or.inr (Nat.le_of_not_lt fits))

/-- **A chain is accepted**, and appended to the list. -/
theorem run_parseLoop (chain : OptionChain m len i options) (enough : len - i < fuel) :
    (ReadProg.loop (parseTurn len) stuck fuel (i, list)).run m = (true, list ++ options) := by
  induction chain generalizing list fuel with
  | ended within mark =>
    obtain ⟨fuel, rfl⟩ : ∃ k, fuel = k + 1 := ⟨fuel - 1, by omega⟩
    rw [ReadProg.run_loop_stop (run_parseTurn_stop (Or.inl mark))]
    simp [within, mark]
  | next unended fits _ ih =>
    obtain ⟨fuel, rfl⟩ : ∃ k, fuel = k + 1 := ⟨fuel - 1, by omega⟩
    rw [ReadProg.run_loop_next (run_parseTurn_next unended fits), ih (by omega), List.append_assoc,
      List.singleton_append]

/-- Nothing else is accepted. -/
theorem chain_of_parseLoop
    (accepted : ((ReadProg.loop (parseTurn len) (false, options) fuel (i, list)).run m).1 = true) :
    ∃ options, OptionChain m len i options := by
  induction fuel generalizing i list with
  | zero => cases accepted
  | succ fuel ih =>
    rcases turn_cases m len i with ⟨unended, fits⟩ | stops
    · rw [ReadProg.run_loop_next (run_parseTurn_next unended fits)] at accepted
      obtain ⟨rest, chain⟩ := ih accepted
      exact ⟨_, .next unended fits chain⟩
    · rw [ReadProg.run_loop_stop (run_parseTurn_stop stops)] at accepted
      simp only [Bool.and_eq_true, decide_eq_true_eq, beq_iff_eq] at accepted
      exact ⟨[], .ended accepted.1 accepted.2⟩

/-- With more turns than the distance to the end, the loop never runs out of them. -/
theorem run_parseLoop_enough {fuel' : Nat} {stuck' : Bool × List DhcpOption} (enough : len - i < fuel)
    (enough' : len - i < fuel') : (ReadProg.loop (parseTurn len) stuck fuel (i, list)).run m =
      (ReadProg.loop (parseTurn len) stuck' fuel' (i, list)).run m := by
  apply ReadProg.run_loop_enough (fun state => len - state.1) ?_ enough enough'
  rintro ⟨j, list⟩ ⟨k, list'⟩ turn
  rcases turn_cases m len j with ⟨unended, fits⟩ | stops
  · rw [run_parseTurn_next unended fits] at turn
    cases turn
    simp only
    omega
  · rw [run_parseTurn_stop stops] at turn
    cases turn

end Parser

/-! ## Chains as bytes -/

/-- Options one behind the other, and the end mark. -/
def chainBytes (options : List DhcpOption) : List Byte :=
  options.flatMap DhcpOption.bytes ++ [OptionCode.endMark]

@[simp] theorem chainBytes_nil : chainBytes [] = [OptionCode.endMark] := rfl

@[simp] theorem chainBytes_cons (opt : DhcpOption) (rest : List DhcpOption) :
    chainBytes (opt :: rest) = opt.bytes ++ chainBytes rest := by
  rw [chainBytes, List.flatMap_cons, List.append_assoc, ← chainBytes]

theorem chainBytes_length_pos (options : List DhcpOption) : 0 < (chainBytes options).length := by
  rw [chainBytes, List.length_append]
  exact Nat.lt_add_left _ Nat.zero_lt_one

section Bytes
variable {m : Memory} {len i : Nat} {options : List DhcpOption} {opt : DhcpOption}

theorem optionAt_len (m : Memory) (i : Nat) : (optionAt m i).len = m (i + 1) := by
  apply BitVec.eq_of_toNat_eq
  rw [DhcpOption.len_toNat, optionAt, Memory.slice_length]

/-- The bytes at an option. -/
theorem slice_optionAt (m : Memory) (i : Nat) :
    m.slice i (2 + (m (i + 1)).toNat) = (optionAt m i).bytes := by
  rw [Nat.add_comm 2, Memory.slice_succ, Memory.slice_succ, DhcpOption.bytes, optionAt_len]
  rfl

theorem optionAt_bytes_length (m : Memory) (i : Nat) :
    (optionAt m i).bytes.length = 2 + (m (i + 1)).toNat := by
  rw [← slice_optionAt, Memory.slice_length]

/-- Where an option's bytes lie, there is that option. -/
theorem optionAt_of_slice (lies : m.slice i opt.bytes.length = opt.bytes) :
    optionAt m i = opt ∧ (m (i + 1)).toNat = opt.data.length ∧ m i = opt.id := by
  rw [DhcpOption.bytes_length, Nat.add_comm 2, Memory.slice_succ, Memory.slice_succ, DhcpOption.bytes,
    List.cons.injEq, List.cons.injEq] at lies
  obtain ⟨id, length, data⟩ := lies
  have number : (m (i + 1)).toNat = opt.data.length := by rw [length, DhcpOption.len_toNat]
  refine ⟨DhcpOption.ext id ?_, number, id⟩
  show m.slice (i + 2) (m (i + 1)).toNat = opt.data
  rw [number]
  exact data

/-- **A chain is its bytes**, up to and with the end mark, inside the buffer. -/
theorem optionChain_iff : OptionChain m len i options ↔ (∀ opt ∈ options, opt.id ≠ OptionCode.endMark) ∧
    i + (chainBytes options).length ≤ len ∧ m.slice i (chainBytes options).length = chainBytes options := by
  constructor
  · intro chain
    induction chain with
    | ended within mark => exact ⟨nofun, within, congrArg (fun b => [b]) mark⟩
    | @next i rest unended fits _ ih =>
      obtain ⟨unmarked, inside, lies⟩ := ih
      refine ⟨List.forall_mem_cons.mpr ⟨unended, unmarked⟩, ?_, ?_⟩
      · rw [chainBytes_cons, List.length_append, optionAt_bytes_length]
        omega
      · rw [chainBytes_cons, List.length_append, Memory.slice_append, optionAt_bytes_length, slice_optionAt,
          ← Nat.add_assoc, lies]
  · rintro ⟨unmarked, inside, lies⟩
    induction options generalizing i with
    | nil => exact .ended inside (List.head_eq_of_cons_eq lies)
    | cons opt rest ih =>
      obtain ⟨unended, later⟩ := List.forall_mem_cons.mp unmarked
      rw [chainBytes_cons, List.length_append, Memory.slice_append] at lies
      obtain ⟨here, behind⟩ := List.append_inj lies (Memory.slice_length m i _)
      rw [chainBytes_cons, List.length_append] at inside
      obtain ⟨rfl, number, id⟩ := optionAt_of_slice here
      have room := chainBytes_length_pos rest
      rw [optionAt_bytes_length, ← Nat.add_assoc] at behind inside
      exact .next unended (by omega) (ih later (by omega) behind)

end Bytes

/-! ## What the serializer writes -/

/-- The cookie and a chain. -/
def encodeOptions (options : List DhcpOption) : List Byte := optionMagic ++ chainBytes options

theorem encodeOptions_length (options : List DhcpOption) :
    (encodeOptions options).length = 4 + (chainBytes options).length := List.length_append

section Serializer
variable {options : List DhcpOption} {p : Nat} {len : BitVec 64} {buf : Memory}

/-- With room for the chain, the loop writes it and returns the position behind it. -/
theorem serializeFrom_fits (fits : (chainBytes options).length ≤ len.toNat) :
    serializeFrom options p len buf = (p + (chainBytes options).length, buf.write p (chainBytes options)) := by
  induction options generalizing p len buf with
  | nil =>
    have room : ¬ len < 1#64 := BitVec.not_lt.mpr (BitVec.le_def.mpr fits)
    rw [serializeFrom, if_neg room]
    rfl
  | cons opt rest ih =>
    have later := chainBytes_length_pos rest
    rw [chainBytes_cons, List.length_append, DhcpOption.bytes_length] at fits
    have room : ¬ len ≤ opt.size := by
      rw [BitVec.not_le, BitVec.lt_def, DhcpOption.size_toNat]
      omega
    have left : (len - opt.size).toNat = len.toNat - (2 + opt.data.length) := by
      rw [BitVec.toNat_sub_of_le (BitVec.le_of_lt (BitVec.not_le.mp room)), DhcpOption.size_toNat]
    have behind : p + opt.size.toNat = p + opt.bytes.length := by rw [DhcpOption.size_toNat, DhcpOption.bytes_length]
    rw [serializeFrom, if_neg room, ih (by omega), behind, Memory.write_append, chainBytes_cons,
      List.length_append, Nat.add_assoc]

/-- Without it, the function fails. -/
theorem serializeFrom_short (short : len.toNat < (chainBytes options).length) :
    (serializeFrom options p len buf).1 = 0 := by
  induction options generalizing p len buf with
  | nil =>
    have none : len < 1#64 := BitVec.lt_def.mpr short
    rw [serializeFrom, if_pos none]
  | cons opt rest ih =>
    rw [chainBytes_cons, List.length_append, DhcpOption.bytes_length] at short
    rw [serializeFrom]
    split
    · rfl
    · rename_i room
      apply ih
      rw [BitVec.toNat_sub_of_le (BitVec.le_of_lt (BitVec.not_le.mp room)), DhcpOption.size_toNat]
      rw [BitVec.not_le, BitVec.lt_def, DhcpOption.size_toNat] at room
      omega

theorem serialize_fits (fits : (encodeOptions options).length ≤ len.toNat) :
    serializeOptionList options buf len = ((encodeOptions options).length, buf.write 0 (encodeOptions options)) := by
  rw [encodeOptions_length] at fits
  have room : ¬ len < 4#64 := BitVec.not_lt.mpr (BitVec.le_def.mpr (Nat.le_of_add_right_le fits))
  have left : (len - 4#64).toNat = len.toNat - 4 := BitVec.toNat_sub_of_le (BitVec.not_lt.mp room)
  have behind := Memory.write_append buf 0 optionMagic (chainBytes options)
  rw [serializeOptionList, if_neg room, serializeFrom_fits (by rw [left]; omega), encodeOptions_length]
  exact congrArg (Prod.mk _) behind

theorem serialize_short (short : len.toNat < (encodeOptions options).length) :
    (serializeOptionList options buf len).1 = 0 := by
  rw [serializeOptionList]
  split
  · rfl
  · rename_i room
    apply serializeFrom_short
    rw [encodeOptions_length] at short
    have left : (len - 4#64).toNat = len.toNat - 4 := BitVec.toNat_sub_of_le (BitVec.not_lt.mp room)
    rw [left]
    rw [BitVec.not_lt, BitVec.le_def] at room
    change 4 ≤ len.toNat at room
    omega

/-- A success is a buffer that was long enough. -/
theorem fits_of_serialize (success : 0 < (serializeOptionList options buf len).1) :
    (encodeOptions options).length ≤ len.toNat := by
  apply Nat.le_of_not_lt
  intro short
  rw [serialize_short short] at success
  exact Nat.lt_irrefl 0 success

end Serializer

/-! ## Serializing and parsing -/

section RoundTrip
variable {m : Memory} {len : BitVec 64} {options list : List DhcpOption}

/-- What is parsed behind the cookie. -/
theorem run_parseOptionsToList (cookie : m.slice 0 4 = optionMagic) (chain : OptionChain m len.toNat 4 options) :
    (parseOptionsToList list len).run m = (true, list ++ options) := by
  have room : ¬ len < 4#64 := by
    obtain ⟨-, inside, -⟩ := optionChain_iff.mp chain
    exact BitVec.not_lt.mpr (BitVec.le_def.mpr (Nat.le_of_add_right_le inside))
  rw [parseOptionsToList, if_neg room, ReadProg.run_bind, ReadProg.run_bytes, cookie, if_neg (not_not.mpr rfl)]
  exact run_parseLoop chain (by omega)

/-- Only a chain behind the cookie is accepted. -/
theorem chain_of_parse (accepted : ((parseOptionsToList list len).run m).1 = true) :
    m.slice 0 4 = optionMagic ∧ ∃ options, OptionChain m len.toNat 4 options := by
  unfold parseOptionsToList at accepted
  split at accepted
  · cases accepted
  · rw [ReadProg.run_bind, ReadProg.run_bytes] at accepted
    split at accepted
    · cases accepted
    · rename_i cookie
      exact ⟨not_not.mp cookie, chain_of_parseLoop accepted⟩

/-- The cookie and a chain lie at the start of the buffer. -/
theorem encoded_iff : (m.slice 0 4 = optionMagic ∧ OptionChain m len.toNat 4 options) ↔
    (∀ opt ∈ options, opt.id ≠ OptionCode.endMark) ∧ (encodeOptions options).length ≤ len.toNat ∧
      m.slice 0 (encodeOptions options).length = encodeOptions options := by
  rw [optionChain_iff, encodeOptions_length, Memory.slice_append, encodeOptions, Nat.zero_add]
  constructor
  · rintro ⟨cookie, unmarked, inside, lies⟩
    exact ⟨unmarked, inside, by rw [cookie, lies]⟩
  · rintro ⟨unmarked, inside, lies⟩
    obtain ⟨cookie, lies⟩ := List.append_inj lies (Memory.slice_length m 0 4)
    exact ⟨cookie, unmarked, inside, lies⟩

/-- **Round trip.** What the serializer wrote, at the start of any buffer, is parsed back. -/
theorem parse_serialized {buf written : Memory} {room : BitVec 64} {n : Nat}
    (unmarked : ∀ opt ∈ options, opt.id ≠ OptionCode.endMark)
    (serialized : serializeOptionList options buf room = (n, written)) (success : 0 < n)
    (inside : n ≤ len.toNat) (starts : m.slice 0 n = written.slice 0 n) :
    (parseOptionsToList [] len).run m = (true, options) := by
  have fits : (encodeOptions options).length ≤ room.toNat := by
    apply @fits_of_serialize options room buf
    rwa [serialized]
  rw [serialize_fits fits] at serialized
  obtain ⟨rfl, rfl⟩ := Prod.mk.inj serialized
  rw [Memory.slice_write_same] at starts
  obtain ⟨cookie, chain⟩ := encoded_iff.mpr ⟨unmarked, inside, starts⟩
  exact run_parseOptionsToList cookie chain

/-- A type, an empty option, and a value of end marks. -/
def mixedOptions : List DhcpOption :=
  [⟨OptionCode.dhcpMessageType, [1#8], by decide⟩, ⟨12#8, [], by decide⟩, ⟨60#8, [255#8, 255#8], by decide⟩]

/-- Fourteen bytes take the three options exactly. -/
theorem parse_serialized_mixed : (serializeOptionList mixedOptions Memory.zero 14#64).1 = 14 ∧
    (parseOptionsToList [] 312#64).run (serializeOptionList mixedOptions Memory.zero 14#64).2 =
      (true, mixedOptions) :=
  ⟨rfl, @parse_serialized _ 312#64 mixedOptions Memory.zero _ 14#64 14 (by decide) rfl (by decide) (by decide) rfl⟩

/-- `bs` is what `serialize_option_list` writes for the options into some buffer. -/
def SerializedAs (options : List DhcpOption) (bs : List Byte) : Prop :=
  ∃ buf room, 0 < (serializeOptionList options buf room).1 ∧
    (serializeOptionList options buf room).2.slice 0 (serializeOptionList options buf room).1 = bs

theorem serializedAs_slice {k : Nat} (inside : k ≤ len.toNat) : SerializedAs options (m.slice 0 k) ↔
    k = (encodeOptions options).length ∧ m.slice 0 k = encodeOptions options := by
  constructor
  · rintro ⟨buf, room, success, bytes⟩
    rw [serialize_fits (fits_of_serialize success), Memory.slice_write_same] at bytes
    refine ⟨?_, bytes.symm⟩
    rw [bytes, Memory.slice_length]
  · rintro ⟨number, bytes⟩
    have fits : (encodeOptions options).length ≤ len.toNat := number ▸ inside
    have written := @serialize_fits options len m fits
    refine ⟨m, len, ?_, ?_⟩
    · rw [written, encodeOptions_length]
      exact Nat.lt_add_right _ (by decide)
    · rw [written, Memory.slice_write_same, bytes]

/-- **The parser accepts exactly what the serializer writes.** It accepts a buffer if and only if a
prefix is the serialized form of a list without end marks; that list is the one it yields, and it
serializes to the same prefix. -/
theorem parse_accepts_iff (m : Memory) (len : BitVec 64) :
    (((parseOptionsToList [] len).run m).1 = true ↔ ∃ k options, k ≤ len.toNat ∧
      (∀ opt ∈ options, opt.id ≠ OptionCode.endMark) ∧ SerializedAs options (m.slice 0 k)) ∧
    ∀ k options, k ≤ len.toNat → (∀ opt ∈ options, opt.id ≠ OptionCode.endMark) →
      SerializedAs options (m.slice 0 k) →
      (parseOptionsToList [] len).run m = (true, options) ∧
      ∀ buf room, k ≤ room.toNat →
        serializeOptionList options buf room = (k, buf.write 0 (m.slice 0 k)) := by
  have yields : ∀ k options, k ≤ len.toNat → (∀ opt ∈ options, opt.id ≠ OptionCode.endMark) →
      SerializedAs options (m.slice 0 k) → (parseOptionsToList [] len).run m = (true, options) := by
    intro k options inside unmarked serialized
    obtain ⟨rfl, bytes⟩ := (serializedAs_slice inside).mp serialized
    obtain ⟨cookie, chain⟩ := encoded_iff.mpr ⟨unmarked, inside, bytes⟩
    exact run_parseOptionsToList cookie chain
  refine ⟨⟨?_, ?_⟩, ?_⟩
  · intro accepted
    obtain ⟨cookie, options, chain⟩ := chain_of_parse accepted
    obtain ⟨unmarked, inside, bytes⟩ := encoded_iff.mp ⟨cookie, chain⟩
    exact ⟨_, options, inside, unmarked, (serializedAs_slice inside).mpr ⟨rfl, bytes⟩⟩
  · rintro ⟨k, options, inside, unmarked, serialized⟩
    rw [yields k options inside unmarked serialized]
  · intro k options inside unmarked serialized
    refine ⟨yields k options inside unmarked serialized, fun buf room fits => ?_⟩
    obtain ⟨rfl, bytes⟩ := (serializedAs_slice inside).mp serialized
    rw [serialize_fits fits, bytes]

end RoundTrip

end DhcpServer
