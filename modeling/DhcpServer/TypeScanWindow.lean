import DhcpServer.Client

/-!
# What the message type depends on

`handle_client` scans 312 option bytes of which the buffer holds 276. `Settles` describes the
walks that end inside the 276 bytes, or step over the 36 bytes behind them in one option. All
others read memory behind the buffer, and what they find there can be any message type.
-/

namespace DhcpServer
set_option autoImplicit false
open Lib

/-- The walk from cursor `i` settles within the 276 bytes of the buffer. -/
inductive Settles (options : Memory) : Nat → Prop where
  /-- It meets the end mark. -/
  | ended {i : Nat} : i < DhcpMessage.dhcpOptionsMaxLen → options i = OptionCode.endMark → Settles options i
  /-- It meets an option 53 whose first value byte is in the buffer. -/
  | typed {i : Nat} : i + 2 < DhcpMessage.dhcpOptionsMaxLen → typedAt options i → Settles options i
  /-- The last option reached past `options_len`. -/
  | past {i : Nat} : DhcpMessage.optionsSize ≤ i → Settles options i
  /-- It steps over an option whose header is in the buffer. -/
  | skip {i : Nat} : i + 1 < DhcpMessage.dhcpOptionsMaxLen → options i ≠ OptionCode.endMark →
      ¬ typedAt options i → Settles options (i + 2 + (options (i + 1)).toNat) → Settles options i

/-- `m` and `options` have the same bytes inside the buffer. -/
def SameInside (options m : Memory) : Prop := ∀ i, i < DhcpMessage.dhcpOptionsMaxLen → m i = options i

theorem typedAt_congr {options m : Memory} (same : SameInside options m) {i : Nat}
    (inside : i + 1 < DhcpMessage.dhcpOptionsMaxLen) : typedAt m i ↔ typedAt options i := by
  rw [typedAt, typedAt, same i (by omega), same (i + 1) inside]

/-- A settled walk reads inside the buffer only. -/
theorem Settles.reads_inside {options m : Memory} (same : SameInside options m) {i : Nat}
    (settles : Settles options i) :
    ∀ j ∈ (typeScanFrom DhcpMessage.optionsSize i).reads m, j < DhcpMessage.dhcpOptionsMaxLen := by
  have fits : DhcpMessage.dhcpOptionsMaxLen < DhcpMessage.optionsSize := by decide
  induction settles with
  | @ended i inside mark =>
    intro j read
    have mark' : m i = OptionCode.endMark := (same i inside).trans mark
    rcases (mem_reads_typeScanFrom m _ i).mp read with ⟨-, rfl | ⟨unended, -⟩⟩
    · exact inside
    · exact (unended mark').elim
  | @typed i inside typed =>
    intro j read
    have typed' := (typedAt_congr same (by omega)).mpr typed
    rw [mem_reads_typeScanFrom, if_pos typed'] at read
    omega
  | past beyond =>
    intro j read
    rw [mem_reads_typeScanFrom] at read
    omega
  | @skip i inside _ untyped _ ih =>
    intro j read
    have untyped' := mt (typedAt_congr same inside).mp untyped
    rw [mem_reads_typeScanFrom, if_neg untyped', same (i + 1) inside] at read
    rcases read with ⟨-, rfl | ⟨-, rfl | later⟩⟩
    · omega
    · exact inside
    · exact ih j later

/-- Laying bytes over the memory behind the buffer. -/
theorem sameInside_write (options : Memory) {a : Nat} (behind : DhcpMessage.dhcpOptionsMaxLen ≤ a)
    (bs : List Byte) : SameInside options (options.write a bs) :=
  fun _ inside => Memory.write_below _ _ _ (by omega)

/-- **A walk that does not settle can be made to return any byte**, by what lies behind the buffer. -/
theorem any_type_of_unsettled (options : Memory) {i : Nat} (unsettled : ¬ Settles options i) (v : Byte) :
    ∃ m, SameInside options m ∧ (typeScanFrom DhcpMessage.optionsSize i).run m = v := by
  have held : DhcpMessage.dhcpOptionsMaxLen = 276 := rfl
  have size : DhcpMessage.optionsSize = 312 := rfl
  induction hn : DhcpMessage.optionsSize - i using Nat.strongRecOn generalizing i with
  | ind n ih =>
    subst hn
    have within : i < DhcpMessage.optionsSize := Nat.lt_of_not_le fun beyond => unsettled (.past beyond)
    by_cases behind : DhcpMessage.dhcpOptionsMaxLen ≤ i
    · -- The cursor is behind the buffer: the option 53 lies right there.
      refine ⟨options.write i [OptionCode.dhcpMessageType, 1#8, v], sameInside_write options behind _, ?_⟩
      exact run_typeScanFrom_laid _ _ _ within (Memory.slice_write_same options i _)
    · have unended : options i ≠ OptionCode.endMark := fun mark => unsettled (.ended (by omega) mark)
      by_cases last : i + 1 < DhcpMessage.dhcpOptionsMaxLen
      · by_cases typed : typedAt options i
        · -- Only the value of the option 53 is behind the buffer.
          have edge : i = 274 := by
            have : ¬ i + 2 < DhcpMessage.dhcpOptionsMaxLen := fun inside => unsettled (.typed inside typed)
            omega
          have same := sameInside_write options (Nat.le_refl _) [v]
          refine ⟨_, same, ?_⟩
          rw [run_typeScanFrom_typed _ _ _ within ((typedAt_congr same last).mpr typed), edge]
          exact Memory.write_inside options 276 [v] (show 0 < 1 by decide)
        · -- The walk goes on, and does not settle further on either.
          obtain ⟨m, same, returns⟩ := ih (DhcpMessage.optionsSize - (i + 2 + (options (i + 1)).toNat)) (by omega)
            (fun settles => unsettled (.skip last unended typed settles)) rfl
          refine ⟨m, same, ?_⟩
          rw [run_typeScanFrom_skip _ _ _ within (by rwa [same i (by omega)])
            (mt (typedAt_congr same last).mp typed), same (i + 1) last]
          exact returns
      · -- The code is the last byte of the buffer: its length lies behind.
        have edge : i = 275 := by omega
        subst edge
        by_cases code : options 275 = OptionCode.dhcpMessageType
        · have same : SameInside options (options.write 276 [1#8, v]) :=
            sameInside_write options (Nat.le_refl 276) _
          have len : options.write 276 [1#8, v] (275 + 1) = 1#8 :=
            Memory.write_inside options 276 [1#8, v] (show 0 < 2 by decide)
          have typed : typedAt (options.write 276 [1#8, v]) 275 :=
            ⟨(same 275 (by decide)).trans code, by rw [len]; decide⟩
          refine ⟨_, same, ?_⟩
          rw [run_typeScanFrom_typed _ _ _ within typed]
          exact Memory.write_inside options 276 [1#8, v] (show 1 < 2 by decide)
        · -- An empty option, and then the option 53.
          have same : SameInside options (options.write 276 [0#8, OptionCode.dhcpMessageType, 1#8, v]) :=
            sameInside_write options (Nat.le_refl 276) _
          have len : options.write 276 [0#8, OptionCode.dhcpMessageType, 1#8, v] (275 + 1) = 0#8 :=
            Memory.write_inside options 276 [0#8, OptionCode.dhcpMessageType, 1#8, v] (show 0 < 4 by decide)
          refine ⟨_, same, ?_⟩
          rw [run_typeScanFrom_skip _ _ _ within (by rwa [same 275 (by decide)])
            fun typed => code ((same 275 (by decide)).symm.trans typed.1), len]
          apply run_typeScanFrom_laid _ _ _ (by decide)
          exact Memory.slice_write_middle options 276 [0#8] [OptionCode.dhcpMessageType, 1#8, v] []

/-! ## Received datagrams -/

/-- The option bytes of a datagram, as `main` copies them into a zeroed buffer. -/
def heldOptions (datagram : List Byte) : Memory :=
  fun i => datagram.getD (DhcpMessage.optionsOffset + i) 0#8

/-- The type `handle_client` computes for a datagram with `after` behind the buffer. -/
def receivedType (datagram : List Byte) (after : Memory) : Byte :=
  getDhcpMessageType (ClientTask.ofDatagram datagram after).request.options DhcpMessage.optionsSize

theorem sameInside_ofDatagram (datagram : List Byte) (after : Memory) :
    SameInside (heldOptions datagram) (ClientTask.ofDatagram datagram after).request.options := by
  intro i inside
  have held : DhcpMessage.optionsOffset + i < bufferSize := by
    simp only [DhcpMessage.optionsOffset, DhcpMessage.dhcpOptionsMaxLen, bufferSize] at inside ⊢
    omega
  exact ClientTask.request_ofDatagram datagram after held

/-- Every memory with the datagram's option bytes inside the buffer can be the one behind them. -/
theorem options_ofDatagram {datagram : List Byte} {m : Memory} (same : SameInside (heldOptions datagram) m) :
    (ClientTask.ofDatagram datagram (m.shift DhcpMessage.dhcpOptionsMaxLen)).request.options = m := by
  funext i
  by_cases inside : i < DhcpMessage.dhcpOptionsMaxLen
  · rw [same i inside]
    exact sameInside_ofDatagram datagram _ i inside
  · obtain ⟨k, rfl⟩ := Nat.exists_eq_add_of_le (Nat.le_of_not_lt inside)
    rw [ClientTask.options_outside]
    rfl

/-- **When the message type depends only on the datagram**: exactly when the walk over its options
settles within the buffer, which is also when the scan reads nothing else. -/
theorem type_of_datagram_iff (datagram : List Byte) :
    ((∀ after after', receivedType datagram after = receivedType datagram after') ↔
      Settles (heldOptions datagram) 4) ∧
    ((∀ after, ∀ i ∈ (typeScan DhcpMessage.optionsSize).reads
        (ClientTask.ofDatagram datagram after).request.options, i < DhcpMessage.dhcpOptionsMaxLen) ↔
      Settles (heldOptions datagram) 4) := by
  have settled_of_alike : (∀ after after', receivedType datagram after = receivedType datagram after') →
      Settles (heldOptions datagram) 4 := by
    intro alike
    by_contra unsettled
    obtain ⟨m, same, discover⟩ := any_type_of_unsettled _ unsettled 1#8
    obtain ⟨m', same', request⟩ := any_type_of_unsettled _ unsettled 3#8
    have clash := alike (m.shift DhcpMessage.dhcpOptionsMaxLen) (m'.shift DhcpMessage.dhcpOptionsMaxLen)
    rw [receivedType, receivedType, options_ofDatagram same, options_ofDatagram same'] at clash
    have types : (1#8 : Byte) = 3#8 := discover.symm.trans (clash.trans request)
    exact absurd types (by decide)
  have alike_of_inside : (∀ after, ∀ i ∈ (typeScan DhcpMessage.optionsSize).reads
      (ClientTask.ofDatagram datagram after).request.options, i < DhcpMessage.dhcpOptionsMaxLen) →
      ∀ after after', receivedType datagram after = receivedType datagram after' := by
    intro inside after after'
    apply (typeScan DhcpMessage.optionsSize).run_congr_below (inside after')
    intro i held
    rw [sameInside_ofDatagram datagram after i held, sameInside_ofDatagram datagram after' i held]
  have inside_of_settled (settles : Settles (heldOptions datagram) 4) (after : Memory) :=
    settles.reads_inside (sameInside_ofDatagram datagram after)
  exact ⟨⟨settled_of_alike, fun settles => alike_of_inside (inside_of_settled settles)⟩,
    ⟨fun inside => settled_of_alike (alike_of_inside inside), inside_of_settled⟩⟩

/-- A datagram of eight bytes: the walk leaves the buffer and finds its option 53 in the port and
the address of the sender. -/
theorem type_of_sender :
    receivedType [bootRequest, 1#8, 6#8, 0#8, 0xC0#8, 0x75#8, 0x4D#8, 0x4C#8]
        (ClientTask.behindBuffer 16#32 8#32 ⟨2#16, 0x0135#16, 0x00000001#32⟩) = 1#8 ∧
      receivedType [bootRequest, 1#8, 6#8, 0#8, 0xC0#8, 0x75#8, 0x4D#8, 0x4C#8]
        (ClientTask.behindBuffer 16#32 8#32 ⟨2#16, 0x0135#16, 0x00000003#32⟩) = 3#8 ∧
      ¬ ∀ after after', receivedType [bootRequest, 1#8, 6#8, 0#8, 0xC0#8, 0x75#8, 0x4D#8, 0x4C#8] after =
        receivedType [bootRequest, 1#8, 6#8, 0#8, 0xC0#8, 0x75#8, 0x4D#8, 0x4C#8] after' := by
  have discover : receivedType [bootRequest, 1#8, 6#8, 0#8, 0xC0#8, 0x75#8, 0x4D#8, 0x4C#8]
      (ClientTask.behindBuffer 16#32 8#32 ⟨2#16, 0x0135#16, 0x00000001#32⟩) = 1#8 := by decide
  have request : receivedType [bootRequest, 1#8, 6#8, 0#8, 0xC0#8, 0x75#8, 0x4D#8, 0x4C#8]
      (ClientTask.behindBuffer 16#32 8#32 ⟨2#16, 0x0135#16, 0x00000003#32⟩) = 3#8 := by decide
  refine ⟨discover, request, fun same => ?_⟩
  have alike := same (ClientTask.behindBuffer 16#32 8#32 ⟨2#16, 0x0135#16, 0x00000001#32⟩)
    (ClientTask.behindBuffer 16#32 8#32 ⟨2#16, 0x0135#16, 0x00000003#32⟩)
  rw [discover, request] at alike
  exact absurd alike (by decide)

end DhcpServer
