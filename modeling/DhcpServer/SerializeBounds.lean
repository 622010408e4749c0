import DhcpServer.Lib.WriteLog
import DhcpServer.OptionList
import Mathlib.Algebra.GroupWithZero.Nat

/-!
# The bounds of the option serializer

`serialize_option_list` with a log of what it writes and of what it subtracts from `len`. It writes
an option only when a byte is left behind it, so there is room for the end mark whenever the loop
has come through.
-/

namespace DhcpServer
set_option autoImplicit false
open Lib

/-- What `serialize_option_list` returns, its writes to the buffer, and the pairs `(len, n)` of its
subtractions `len -= n`. -/
structure SerializeLog where
  returned : Nat
  writes : List Write
  subtractions : List (BitVec 64 × BitVec 64)

/-- `serializeFrom` with its log. -/
def serializeLogFrom : List DhcpOption → Nat → BitVec 64 → SerializeLog
  | [], p, len => if len < 1#64 then ⟨0, [], []⟩ else ⟨p + 1, [⟨p, [OptionCode.endMark]⟩], [(len, 1#64)]⟩
  | opt :: rest, p, len =>
    if len ≤ opt.size then
      ⟨0, [], []⟩
    else
      let log := serializeLogFrom rest (p + opt.size.toNat) (len - opt.size)
      { log with writes := ⟨p, opt.bytes⟩ :: log.writes, subtractions := (len, opt.size) :: log.subtractions }

/-- `serialize_option_list` with its log. -/
def serializeLog (list : List DhcpOption) (len : BitVec 64) : SerializeLog :=
  if len < 4#64 then
    ⟨0, [], []⟩
  else
    let log := serializeLogFrom list 4 (len - 4#64)
    { log with writes := ⟨0, optionMagic⟩ :: log.writes, subtractions := (len, 4#64) :: log.subtractions }

/-- The cookie, the options and the end mark. -/
def totalSize (list : List DhcpOption) : Nat := 5 + (list.map fun opt => 2 + opt.len.toNat).sum

/-- The function returns the total and writes no further, or returns zero; it never writes past `len`,
and no subtraction wraps. -/
structure FitsOrFails (list : List DhcpOption) (len : BitVec 64) : Prop where
  /-- The log is that of the function. -/
  logged : ∀ buf, serializeOptionList list buf len =
    ((serializeLog list len).returned, applyWrites buf (serializeLog list len).writes)
  fits : totalSize list ≤ len.toNat → (serializeLog list len).returned = totalSize list ∧
    WritesBelow (totalSize list) (serializeLog list len).writes
  fails : len.toNat < totalSize list → (serializeLog list len).returned = 0
  inside : WritesBelow len.toNat (serializeLog list len).writes
  kept : ∀ buf i, len.toNat ≤ i → (serializeOptionList list buf len).2 i = buf i
  unwrapped : ∀ s ∈ (serializeLog list len).subtractions, s.2 ≤ s.1

section Log
variable {list : List DhcpOption} {p : Nat} {len : BitVec 64}

/-- The log leads to the buffer the function leaves. -/
theorem serializeFrom_log (list : List DhcpOption) (p : Nat) (len : BitVec 64) (buf : Memory) :
    serializeFrom list p len buf =
      ((serializeLogFrom list p len).returned, applyWrites buf (serializeLogFrom list p len).writes) := by
  induction list generalizing p len buf with
  | nil =>
    rw [serializeFrom, serializeLogFrom]
    split <;> rfl
  | cons opt rest ih =>
    rw [serializeFrom, serializeLogFrom]
    split
    · rfl
    · exact ih _ _ _

theorem serializeOptionList_log (list : List DhcpOption) (len : BitVec 64) (buf : Memory) :
    serializeOptionList list buf len =
      ((serializeLog list len).returned, applyWrites buf (serializeLog list len).writes) := by
  rw [serializeOptionList, serializeLog]
  split
  · rfl
  · exact serializeFrom_log _ _ _ _

theorem size_eq_length (opt : DhcpOption) : opt.size.toNat = opt.bytes.length :=
  opt.size_toNat.trans opt.bytes_length.symm

/-- What is left behind an option that passed the test. -/
theorem left_toNat {opt : DhcpOption} (room : ¬ len ≤ opt.size) :
    (len - opt.size).toNat + opt.bytes.length = len.toNat := by
  have less := BitVec.le_of_lt (BitVec.not_le.mp room)
  rw [BitVec.toNat_sub_of_le less, ← size_eq_length]
  exact Nat.sub_add_cancel (BitVec.le_def.mp less)

/-- The loop writes within the bytes that are left. -/
theorem writes_inside (list : List DhcpOption) (p : Nat) (len : BitVec 64) :
    WritesBelow (p + len.toNat) (serializeLogFrom list p len).writes := by
  induction list generalizing p len with
  | nil =>
    rw [serializeLogFrom]
    split
    · exact writesBelow_nil
    · rename_i room
      have one : 1 ≤ len.toNat := BitVec.le_def.mp (BitVec.not_lt.mp room)
      exact writesBelow_cons.mpr ⟨Nat.add_le_add_left one p, writesBelow_nil⟩
  | cons opt rest ih =>
    rw [serializeLogFrom]
    split
    · exact writesBelow_nil
    · rename_i room
      have left := left_toNat room
      have size := size_eq_length opt
      refine writesBelow_cons.mpr ⟨?_, (ih _ _).mono (by omega)⟩
      show p + opt.bytes.length ≤ p + len.toNat
      omega

/-- And subtracts no more than they are. -/
theorem subtractions_unwrapped (list : List DhcpOption) (p : Nat) (len : BitVec 64) :
    ∀ s ∈ (serializeLogFrom list p len).subtractions, s.2 ≤ s.1 := by
  induction list generalizing p len with
  | nil =>
    rw [serializeLogFrom]
    split
    · exact nofun
    · rename_i room
      exact List.forall_mem_singleton.mpr (BitVec.not_lt.mp room)
  | cons opt rest ih =>
    rw [serializeLogFrom]
    split
    · exact nofun
    · rename_i room
      exact List.forall_mem_cons.mpr ⟨BitVec.le_of_lt (BitVec.not_le.mp room), ih _ _⟩

/-- A loop that comes through has written up to what the function returns. -/
theorem writes_below_returned (list : List DhcpOption) (p : Nat) (len : BitVec 64)
    (success : (serializeLogFrom list p len).returned ≠ 0) : p < (serializeLogFrom list p len).returned ∧
      WritesBelow (serializeLogFrom list p len).returned (serializeLogFrom list p len).writes := by
  induction list generalizing p len with
  | nil =>
    rw [serializeLogFrom] at success ⊢
    split at success
    · exact (success rfl).elim
    · rename_i room
      rw [if_neg room]
      exact ⟨Nat.lt_succ_self p, writesBelow_cons.mpr ⟨Nat.le_refl _, writesBelow_nil⟩⟩
  | cons opt rest ih =>
    rw [serializeLogFrom] at success ⊢
    split at success
    · exact (success rfl).elim
    · rename_i room
      rw [if_neg room]
      obtain ⟨past, below⟩ := ih _ _ success
      refine ⟨Nat.lt_of_le_of_lt (Nat.le_add_right p opt.size.toNat) past, writesBelow_cons.mpr ⟨?_, below⟩⟩
      show p + opt.bytes.length ≤ _
      rw [← size_eq_length]
      exact Nat.le_of_lt past

theorem encodeOptions_totalSize (list : List DhcpOption) : (encodeOptions list).length = totalSize list := by
  have chain : (chainBytes list).length = (list.map fun opt => 2 + opt.len.toNat).sum + 1 := by
    induction list with
    | nil => rfl
    | cons opt rest ih =>
      rw [chainBytes_cons, List.length_append, ih, List.map_cons, List.sum_cons, DhcpOption.bytes_length,
        DhcpOption.len_toNat, Nat.add_assoc, Nat.add_assoc, Nat.add_assoc]
  rw [encodeOptions_length, chain, totalSize]
  omega

theorem serializeLog_inside (list : List DhcpOption) (len : BitVec 64) :
    WritesBelow len.toNat (serializeLog list len).writes := by
  unfold serializeLog
  split
  · exact writesBelow_nil
  · rename_i room
    have four : 4 ≤ len.toNat := BitVec.le_def.mp (BitVec.not_lt.mp room)
    have left : (len - 4#64).toNat = len.toNat - 4 := BitVec.toNat_sub_of_le (BitVec.not_lt.mp room)
    refine writesBelow_cons.mpr ⟨four, (writes_inside _ _ _).mono ?_⟩
    omega

end Log

/-- **`serialize_option_list` fits or fails.** -/
theorem serialize_fits_or_fails (list : List DhcpOption) (len : BitVec 64) : FitsOrFails list len where
  logged := serializeOptionList_log list len
  fits := by
    intro enough
    rw [← encodeOptions_totalSize] at enough
    have returned : (serializeLog list len).returned = totalSize list := by
      have written := @serialize_fits list len Memory.zero enough
      rw [serializeOptionList_log] at written
      exact (congrArg Prod.fst written).trans (encodeOptions_totalSize list)
    refine ⟨returned, ?_⟩
    rw [← returned]
    have positive : (serializeLog list len).returned ≠ 0 := by
      rw [returned, totalSize]
      omega
    unfold serializeLog at positive ⊢
    split at positive
    · exact (positive rfl).elim
    · rename_i room
      rw [if_neg room]
      obtain ⟨past, below⟩ := writes_below_returned _ _ _ positive
      exact writesBelow_cons.mpr ⟨Nat.le_of_lt past, below⟩
  fails := by
    intro less
    rw [← encodeOptions_totalSize] at less
    have failed := @serialize_short list len Memory.zero less
    rwa [serializeOptionList_log] at failed
  inside := serializeLog_inside list len
  kept := by
    intro buf i above
    rw [serializeOptionList_log]
    exact applyWrites_above (serializeLog_inside list len) above
  unwrapped := by
    unfold serializeLog
    split
    · exact nofun
    · rename_i room
      exact List.forall_mem_cons.mpr ⟨BitVec.not_lt.mp room, subtractions_unwrapped _ _ _⟩

end DhcpServer
