import DhcpServer.ConfigKept
import DhcpServer.Duplicates
import DhcpServer.PrintMessage
import DhcpServer.ReplyOverrun
import DhcpServer.TypeScanWindow

/-!
# Where the printouts read

`handle_client` prints the 548 bytes of a message out of a 512-byte buffer, and the handlers print the replies
they have built. What a printout of a datagram reads behind the buffer is up to the datagram; what a printout
of a reply reads behind the reply is up to the DNS server in the configuration.
-/

namespace DhcpServer
set_option autoImplicit false
open Lib

/-! ## Received datagrams -/

/-- A walk settles within the buffer exactly when the scan reads nothing else. -/
theorem settles_iff_reads_inside {options : Memory} {i : Nat} : Settles options i ↔
    ∀ j ∈ (typeScanFrom DhcpMessage.optionsSize i).reads options, j < DhcpMessage.dhcpOptionsMaxLen := by
  refine ⟨fun settles => settles.reads_inside fun _ _ => rfl, fun inside => ?_⟩
  induction hn : DhcpMessage.optionsSize - i using Nat.strongRecOn generalizing i with
  | ind n ih =>
    subst hn
    by_cases within : i < DhcpMessage.optionsSize
    · have here := inside i ((mem_reads_typeScanFrom _ _ _).mpr ⟨within, Or.inl rfl⟩)
      by_cases unended : options i = OptionCode.endMark
      · exact .ended here unended
      · have length := inside (i + 1) ((mem_reads_typeScanFrom _ _ _).mpr ⟨within, Or.inr ⟨unended, Or.inl rfl⟩⟩)
        by_cases typed : typedAt options i
        · have value := inside (i + 2) ((mem_reads_typeScanFrom _ _ _).mpr
            ⟨within, Or.inr ⟨unended, Or.inr (by rw [if_pos typed])⟩⟩)
          exact .typed value typed
        · refine .skip length unended typed (ih _ (by omega) (fun j read => ?_) rfl)
          refine inside j ((mem_reads_typeScanFrom _ _ _).mpr ⟨within, Or.inr ⟨unended, Or.inr ?_⟩⟩)
          rwa [if_neg typed]
    · exact .past (Nat.le_of_not_lt within)

/-- What keeps the printout of a datagram in the buffer. -/
structure PrintsInside (datagram : List Byte) : Prop where
  /-- The walk for the message type settles within the buffer. -/
  settles : Settles (heldOptions datagram) 4
  /-- The `%s` of `file` comes to a zero. -/
  zero : ∃ i, DhcpMessage.fileOffset ≤ i ∧ i < bufferSize ∧ datagram.getD i 0#8 = 0#8
  /-- The loop over the options comes to the end mark. -/
  mark : ∃ i, DhcpMessage.optionsOffset ≤ i ∧ i < bufferSize ∧ datagram.getD i 0#8 = 0xFF#8

theorem settles_ofDatagram (datagram : List Byte) (after : Memory) :
    Settles (ClientTask.ofDatagram datagram after).request.options 4 ↔ Settles (heldOptions datagram) 4 := by
  have same := sameInside_ofDatagram datagram after
  constructor
  · intro settles
    exact settles_iff_reads_inside.mpr (settles.reads_inside fun i inside => (same i inside).symm)
  · intro settles
    exact settles_iff_reads_inside.mpr (settles.reads_inside same)

/-- **When the printout of a datagram stays in the buffer**, whatever lies behind it: exactly when the walk for
its type settles there, `file` meets a zero and the options have an end mark. It then depends on the datagram
alone. -/
theorem received_print_inside_iff (datagram : List Byte) :
    (∀ after, (∀ j ∈ printDhcpMessage.reads (ClientTask.ofDatagram datagram after).request, j < bufferSize) ↔
      PrintsInside datagram) ∧
    (PrintsInside datagram → ∀ after after',
      printDhcpMessage.run (ClientTask.ofDatagram datagram after).request =
        printDhcpMessage.run (ClientTask.ofDatagram datagram after').request) := by
  have inside_iff (after : Memory) :
      (∀ j ∈ printDhcpMessage.reads (ClientTask.ofDatagram datagram after).request, j < bufferSize) ↔
        PrintsInside datagram := by
    have scanned :
        (∀ j ∈ (typeScan DhcpMessage.optionsSize).reads (ClientTask.ofDatagram datagram after).request.options,
          DhcpMessage.optionsOffset + j < bufferSize) ↔ Settles (heldOptions datagram) 4 := by
      rw [← settles_ofDatagram datagram after, settles_iff_reads_inside]
      refine forall₂_congr fun j _ => ?_
      simp only [DhcpMessage.optionsOffset, bufferSize, DhcpMessage.dhcpOptionsMaxLen]
      omega
    have held (start : Nat) (b : Byte) :
        (∃ i, start ≤ i ∧ i < bufferSize ∧ (ClientTask.ofDatagram datagram after).request i = b) ↔
          ∃ i, start ≤ i ∧ i < bufferSize ∧ datagram.getD i 0#8 = b := by
      refine exists_congr fun i => and_congr_right fun _ => and_congr_right fun inside => ?_
      rw [ClientTask.request_ofDatagram datagram after inside]
    rw [printDhcpMessage_below_iff (by decide) (by decide), or_iff_right (by decide), scanned, held, held]
    constructor
    · rintro ⟨settles, zero, mark⟩
      exact ⟨settles, zero, mark⟩
    · rintro ⟨settles, zero, mark⟩
      exact ⟨settles, zero, mark⟩
  refine ⟨inside_iff, fun inside after after' => ?_⟩
  refine printDhcpMessage.run_congr_below ((inside_iff after').mpr inside) fun i held => ?_
  rw [ClientTask.request_ofDatagram _ _ held, ClientTask.request_ofDatagram _ _ held]

/-! ## Replies -/

/-- The scan from a cursor on reads the byte behind the options. -/
def Overruns (options : Memory) (i : Nat) : Prop :=
  DhcpMessage.optionsSize ∈ (typeScanFrom DhcpMessage.optionsSize i).reads options

section Overruns
variable {options : Memory} {i : Nat}

theorem overruns_ended (within : i < DhcpMessage.optionsSize) (mark : options i = OptionCode.endMark) :
    ¬ Overruns options i := by
  rw [Overruns, mem_reads_typeScanFrom]
  rintro ⟨-, same | ⟨unended, -⟩⟩
  · exact Nat.ne_of_gt within same
  · exact unended mark

theorem overruns_past (past : DhcpMessage.optionsSize ≤ i) : ¬ Overruns options i := by
  rw [Overruns, mem_reads_typeScanFrom]
  exact fun reads => Nat.not_lt_of_le past reads.1

/-- An option whose code is the last of the bytes has its length behind them. -/
theorem overruns_last (unended : options 311 ≠ OptionCode.endMark) : Overruns options 311 := by
  rw [Overruns, mem_reads_typeScanFrom]
  exact ⟨by decide, Or.inr ⟨unended, Or.inl rfl⟩⟩

/-- Over an option in front of it the scan goes on. -/
theorem overruns_skip (within : i < 311) (unended : options i ≠ OptionCode.endMark) (untyped : ¬ typedAt options i) :
    Overruns options i ↔ Overruns options (i + 2 + (options (i + 1)).toNat) := by
  have size : DhcpMessage.optionsSize = 312 := rfl
  rw [Overruns, mem_reads_typeScanFrom, if_neg untyped]
  constructor
  · rintro ⟨-, same | ⟨-, same | later⟩⟩
    · omega
    · omega
    · exact later
  · intro later
    exact ⟨by omega, Or.inr ⟨unended, Or.inr later⟩⟩

/-- At an option 53 with a value it ends. -/
theorem overruns_typed (within : i < 310) (typed : typedAt options i) : ¬ Overruns options i := by
  have size : DhcpMessage.optionsSize = 312 := rfl
  rw [Overruns, mem_reads_typeScanFrom, if_pos typed]
  rintro ⟨-, same | ⟨-, same | same⟩⟩ <;> omega

/-- One turn of the scan. -/
theorem overruns_turn (within : i < 310) : Overruns options i ↔
    (options i ≠ OptionCode.endMark ∧ ¬ typedAt options i) ∧ Overruns options (i + 2 + (options (i + 1)).toNat) := by
  constructor
  · intro overruns
    have unended : options i ≠ OptionCode.endMark :=
      fun mark => overruns_ended (Nat.lt_trans within (by decide)) mark overruns
    have untyped : ¬ typedAt options i := fun typed => overruns_typed within typed overruns
    exact ⟨⟨unended, untyped⟩, (overruns_skip (Nat.lt_succ_of_lt within) unended untyped).mp overruns⟩
  · rintro ⟨⟨unended, untyped⟩, overruns⟩
    exact (overruns_skip (Nat.lt_succ_of_lt within) unended untyped).mpr overruns

/-- Zeros up to the end are options of length zero: the parity of the cursor decides. -/
theorem overruns_zeros {start : Nat} (zeros : ∀ k, start ≤ k → k < DhcpMessage.optionsSize → options k = 0#8)
    (above : start ≤ i) (within : i < DhcpMessage.optionsSize) : Overruns options i ↔ i % 2 = 1 := by
  have size : DhcpMessage.optionsSize = 312 := rfl
  induction hn : DhcpMessage.optionsSize - i using Nat.strongRecOn generalizing i with
  | ind n ih =>
    subst hn
    have here := zeros i above within
    have unended : options i ≠ OptionCode.endMark := by
      rw [here]
      decide
    by_cases last : i = 311
    · subst last
      exact iff_of_true (overruns_last unended) rfl
    · have untyped : ¬ typedAt options i := by
        rw [typedAt, here]
        exact fun typed => absurd typed.1 (by decide)
      rw [overruns_skip (by omega) unended untyped, zeros (i + 1) (by omega) (by omega),
        show i + 2 + (0#8 : Byte).toNat = i + 2 from rfl]
      by_cases more : i + 2 < DhcpMessage.optionsSize
      · have next : Overruns options (i + 2) ↔ (i + 2) % 2 = 1 := ih _ (by omega) (by omega) more rfl
        rw [next]
        omega
      · exact iff_of_false (overruns_past (by omega)) (by omega)

end Overruns

/-- Behind the address of an INFORM reply there are zeros up to its end mark in position 25, and then zeros
again: an even cursor in front of the end mark misses it, an odd one behind it comes to the last byte. -/
def cursorOverruns (i : Nat) : Bool := if i % 2 = 0 then i ≤ 24 else 27 ≤ i

/-- An octet of an address, the highest first. -/
def octet (address : BitVec 32) (k : Nat) : Byte := (wordOctets address).getD k 0#8

/-- The octet, taken for a code, is stepped over. -/
def octetPasses (address : BitVec 32) (k : Nat) : Bool :=
  octet address k != OptionCode.endMark &&
    (octet address k != OptionCode.dhcpMessageType || octet address (k + 1) == 0#8)

/-- The scan of an INFORM reply starts at its DNS address, and takes the octets for codes and lengths. -/
def informOverruns (dns : BitVec 32) : Bool :=
  octetPasses dns 0 &&
    if octet dns 1 = 0#8 then octetPasses dns 2 && cursorOverruns (8 + (octet dns 3).toNat)
    else cursorOverruns (6 + (octet dns 1).toNat)

section Replies
variable {config : DhcpConfig} {request : DhcpMessage} {options : Memory} {i : Nat}

/-- Behind the address the option bytes of an INFORM reply are zeros, but for the end mark. -/
theorem informOptions_zero (config : DhcpConfig) (low : 8 ≤ i) (other : i ≠ 25) :
    (informOptions config).getD i 0#8 = 0#8 := by
  obtain ⟨k, rfl⟩ := Nat.exists_eq_add_of_le low
  have behind : (informOptions config)[8 + k]? = (List.replicate 17 0#8 ++ [0xFF#8])[k]? := by
    rw [informOptions, List.append_assoc, List.getElem?_append_right (Nat.le_add_right 8 k)]
    exact congrArg (fun j => (List.replicate 17 0#8 ++ [0xFF#8])[j]?) (Nat.add_sub_cancel_left 8 k)
  rw [List.getD_eq_getElem?_getD, behind]
  by_cases past : 18 ≤ k
  · rw [List.getElem?_eq_none past]
    rfl
  · have zeros : ∀ k < 18, 8 + k ≠ 25 → ((List.replicate 17 0#8 ++ [0xFF#8])[k]?).getD 0#8 = 0#8 := by decide
    exact zeros k (Nat.lt_of_not_le past) other

theorem overruns_inform_zeros (bytes : ∀ k, options k = (informOptions config).getD k 0#8) (above : 8 ≤ i)
    (within : i < DhcpMessage.optionsSize) : Overruns options i ↔ cursorOverruns i = true := by
  have size : DhcpMessage.optionsSize = 312 := rfl
  have zero (k : Nat) (low : 8 ≤ k) (other : k ≠ 25) : options k = 0#8 :=
    (bytes k).trans (informOptions_zero config low other)
  have mark : options 25 = OptionCode.endMark := bytes 25
  have behind (k : Nat) (low : 26 ≤ k) (high : k < DhcpMessage.optionsSize) : Overruns options k ↔ k % 2 = 1 :=
    overruns_zeros (fun j start _ => zero j (by omega) (by omega)) low high
  have skip (k : Nat) (low : 8 ≤ k) (high : k < 25) :
      Overruns options k ↔ Overruns options (k + 2 + (options (k + 1)).toNat) := by
    refine overruns_skip (by omega) ?_ ?_
    · rw [zero k low (by omega)]
      decide
    · rw [typedAt, zero k low (by omega)]
      exact fun typed => absurd typed.1 (by decide)
  rw [cursorOverruns]
  by_cases past : 26 ≤ i
  · rw [behind i past within]
    split <;> simp <;> omega
  · -- From here on the cursor goes by two, up to the end mark or the byte in front of it.
    induction hn : 26 - i using Nat.strongRecOn generalizing i with
    | ind n ih =>
      subst hn
      by_cases ended : i = 25
      · subst ended
        exact iff_of_false (overruns_ended (by decide) mark) (by decide)
      · rw [skip i above (by omega)]
        by_cases last : i = 24
        · subst last
          rw [mark]
          exact iff_of_true ((behind 281 (by decide) (by decide)).mpr rfl) rfl
        · have next : Overruns options (i + 2) ↔ _ := ih (26 - (i + 2)) (by omega) (by omega) (by omega) (by omega) rfl
          rw [zero (i + 1) (by omega) (by omega), show i + 2 + (0#8 : Byte).toNat = i + 2 from rfl, next]
          split <;> split <;> simp <;> omega

/-- **What the scan of an INFORM reply does** is up to the DNS address in it. -/
theorem overruns_inform (bytes : ∀ k, options k = (informOptions config).getD k 0#8) :
    Overruns options 4 ↔ informOverruns (config.dns.get 0) = true := by
  have size : DhcpMessage.optionsSize = 312 := rfl
  have at4 : options 4 = octet (config.dns.get 0) 0 := bytes 4
  have at5 : options 5 = octet (config.dns.get 0) 1 := bytes 5
  have at6 : options 6 = octet (config.dns.get 0) 2 := bytes 6
  have at7 : options 7 = octet (config.dns.get 0) 3 := bytes 7
  have at8 : options 8 = 0#8 := (bytes 8).trans (informOptions_zero config (by decide) (by decide))
  have passes (k : Nat) (here : options (4 + k) = octet (config.dns.get 0) k)
      (next : options (4 + k + 1) = octet (config.dns.get 0) (k + 1)) :
      (options (4 + k) ≠ OptionCode.endMark ∧ ¬ typedAt options (4 + k)) ↔ octetPasses (config.dns.get 0) k = true := by
    rw [typedAt, here, next, octetPasses]
    simp [imp_iff_not_or]
  have small := (octet (config.dns.get 0) 1).isLt
  have small' := (octet (config.dns.get 0) 3).isLt
  rw [informOverruns, overruns_turn (by decide), passes 0 at4 at5, Bool.and_eq_true, at5]
  refine and_congr_right fun _ => ?_
  by_cases first : octet (config.dns.get 0) 1 = 0#8
  · rw [if_pos first, first, show 4 + 2 + (0#8 : Byte).toNat = 4 + 2 from rfl, overruns_turn (by decide),
      passes 2 at6 at7, Bool.and_eq_true, at7]
    refine and_congr_right fun _ => ?_
    exact overruns_inform_zeros bytes (Nat.le_add_right 8 _) (by omega)
  · rw [if_neg first]
    have positive : (octet (config.dns.get 0) 1).toNat ≠ 0 := fun zero => first (BitVec.eq_of_toNat_eq zero)
    by_cases one : (octet (config.dns.get 0) 1).toNat = 1
    · rw [one]
      refine iff_of_false (fun overruns => ?_) (by decide)
      -- The length of the option in position 7 is the zero behind the address.
      obtain ⟨-, later⟩ := (overruns_turn (by decide)).mp overruns
      rw [show 4 + 2 + 1 + 1 = 8 from rfl, at8] at later
      exact absurd ((overruns_inform_zeros bytes (by decide) (by decide)).mp later) (by decide)
    · exact overruns_inform_zeros bytes (by omega) (by omega)

/-- The options of a reply end in zeros, so the scan reads one byte behind them at most. -/
theorem scan_end (zero : options 310 = 0#8) (zero' : options 311 = 0#8) {j : Nat}
    (read : j ∈ (typeScan DhcpMessage.optionsSize).reads options) : j ≤ DhcpMessage.optionsSize := by
  obtain ⟨i, -, within, here⟩ := mem_reads_typeScan.mp read
  rcases here with rfl | ⟨-, rfl | ⟨typed, rfl⟩⟩
  · exact Nat.le_of_lt within
  · exact within
  · have coded (same : options i = 0#8) : False := by
      rw [typedAt, same] at typed
      exact absurd typed.1 (by decide)
    have here : i ≠ 310 := by
      rintro rfl
      exact coded zero
    have here' : i ≠ 311 := by
      rintro rfl
      exact coded zero'
    simp only [DhcpMessage.optionsSize] at within ⊢
    omega

theorem scan_inside_iff (zero : options 310 = 0#8) (zero' : options 311 = 0#8) :
    (∀ j ∈ (typeScan DhcpMessage.optionsSize).reads options, DhcpMessage.optionsOffset + j < DhcpMessage.size) ↔
      ¬ Overruns options 4 := by
  constructor
  · intro inside overruns
    exact Nat.lt_irrefl DhcpMessage.size (inside DhcpMessage.optionsSize overruns)
  · intro inside j read
    have notLast : j ≠ DhcpMessage.optionsSize := by
      rintro rfl
      exact inside read
    have low := scan_end zero zero' read
    simp only [DhcpMessage.optionsSize, DhcpMessage.optionsOffset, DhcpMessage.size] at low notLast ⊢
    omega

theorem ReplyKind.optionBytes_length (config : DhcpConfig) (kind : ReplyKind) :
    (kind.optionBytes config).length ≤ 32 := by
  cases kind with
  | offer => exact (by decide : 14 ≤ 32)
  | ack => exact (by decide : 32 ≤ 32)
  | inform => exact (by decide : 26 ≤ 32)
  | nack => exact (by decide : 4 ≤ 32)

theorem message_options (clear : ClearOfOptions request) (kind : ReplyKind) (k : Nat) :
    (kind.message request config).options k = (kind.optionBytes config).getD k 0#8 := by
  rw [ReplyKind.message_eq]
  exact buildReply_option (kind.flags_short request) clear

/-- The options of an OFFER or an ACK start with an option 53. -/
theorem overruns_of_typed (code : options 4 = OptionCode.dhcpMessageType) (length : options 5 = 1#8) :
    ¬ Overruns options 4 := by
  refine overruns_typed (by decide) ⟨code, ?_⟩
  rw [length]
  decide

/-- Only an INFORM reply makes the scan run past its options. -/
theorem overruns_message (clear : ClearOfOptions request) (kind : ReplyKind) :
    Overruns (kind.message request config).options 4 ↔ kind = .inform ∧ informOverruns (config.dns.get 0) = true := by
  have bytes := @message_options config request clear kind
  generalize (kind.message request config).options = options at bytes
  cases kind with
  | offer => exact iff_of_false (overruns_of_typed (bytes 4) (bytes 5)) (by rintro ⟨⟨⟩, -⟩)
  | ack => exact iff_of_false (overruns_of_typed (bytes 4) (bytes 5)) (by rintro ⟨⟨⟩, -⟩)
  | inform => exact (overruns_inform bytes).trans (and_iff_right rfl).symm
  | nack =>
    have zeros (k : Nat) (low : nackOptions.length ≤ k) (_ : k < DhcpMessage.optionsSize) : options k = 0#8 := by
      rw [bytes, ReplyKind.optionBytes, List.getD_eq_getElem?_getD, List.getElem?_eq_none low]
      rfl
    rw [overruns_zeros zeros (Nat.le_refl 4) (by decide)]
    exact iff_of_false (by decide) (by rintro ⟨⟨⟩, -⟩)

/-- The copy of `hlen` bytes, whatever `hlen` is, ends in front of the last options. -/
theorem message_tail (kind : ReplyKind) {k : Nat} (high : 47 ≤ k) :
    (kind.message request config).options k = 0#8 := by
  have apart : DhcpMessage.chaddrOffset + request.hlen.toNat ≤ DhcpMessage.optionsOffset + k := by
    have bound := request.hlen.isLt
    simp only [DhcpMessage.chaddrOffset, DhcpMessage.optionsOffset]
    omega
  have past : DhcpMessage.optionsOffset + (kind.optionBytes config).length ≤ DhcpMessage.optionsOffset + k :=
    Nat.add_le_add_left (Nat.le_trans (kind.optionBytes_length config) (Nat.le_trans (by decide) high)) _
  rw [ReplyKind.message_eq, DhcpMessage.options, Memory.shift_apply, buildReply_uncopied (Or.inr apart),
    Memory.write_above _ _ _ past, replyHeader_above (kind.flags_short request)]
  exact Nat.le_trans (by decide) (Nat.le_add_right DhcpMessage.optionsOffset k)

/-- The printout of a reply reads one byte behind it at most; without corrupted options it is known when. -/
theorem message_print (kind : ReplyKind) :
    (∀ j ∈ printDhcpMessage.reads (kind.message request config), j ≤ DhcpMessage.size) ∧
    (ClearOfOptions request → ((∀ j ∈ printDhcpMessage.reads (kind.message request config), j < DhcpMessage.size) ↔
      ¬ (kind = .inform ∧ informOverruns (config.dns.get 0) = true))) := by
  have zero : (kind.message request config).options 310 = 0#8 := message_tail kind (by decide)
  have zero' : (kind.message request config).options 311 = 0#8 := message_tail kind (by decide)
  have last : kind.message request config 547 = 0#8 := zero'
  constructor
  · have scanned : ∀ j ∈ (typeScan DhcpMessage.optionsSize).reads (kind.message request config).options,
        DhcpMessage.optionsOffset + j < DhcpMessage.size + 1 :=
      fun j read => Nat.lt_succ_of_le (Nat.add_le_add_left (scan_end zero zero' read) DhcpMessage.optionsOffset)
    intro j read
    exact Nat.le_of_lt_succ ((printDhcpMessage_below_iff (by decide) (by decide)).mpr
      ⟨scanned, ⟨547, by decide, by decide, last⟩, Or.inl (Nat.le_succ _)⟩ j read)
  · intro clear
    rw [printDhcpMessage_below_iff (by decide) (by decide), scan_inside_iff zero zero', overruns_message clear kind,
      and_iff_left ⟨⟨547, by decide, by decide, last⟩, Or.inl (Nat.le_refl _)⟩]

end Replies

/-! ## Along a run -/

section Runs
variable {pool : IpPoolInd} {config : DhcpConfig} {h : History} {s : Server} {turn : Turn} {action : Action}
  {reply : Reply}

/-- **Where the printout of a reply reads**: one byte behind the reply at most, and, where `hlen` leaves the
options alone, that byte exactly for an INFORM reply after the first ACK of the run or with a DNS server whose
octets lead the scan past the end mark. -/
theorem reply_print_inside_iff (run : Run serve (Server.fresh pool config) ((turn, action) :: h) s)
    (replies : action.reply = some reply) :
    (∀ j ∈ printDhcpMessage.reads reply.message, j ≤ DhcpMessage.size) ∧
    (ClearOfOptions turn.request → ((∀ j ∈ printDhcpMessage.reads reply.message, j < DhcpMessage.size) ↔
      ¬ (dispatch turn.task = .inform ∧ (acked h = true ∨ informOverruns (config.dns.get 0) = true)))) := by
  cases run with
  | @snoc _ u _ _ _ before stepped =>
    obtain ⟨kind, message, informs⟩ := reply_kind stepped replies
    obtain ⟨near, inside⟩ := @message_print u.config turn.request kind
    have overruns : informOverruns (u.config.dns.get 0) = true ↔
        acked h = true ∨ informOverruns (config.dns.get 0) = true := by
      rw [config_of_run before]
      split
      · rename_i ack
        refine iff_of_true ?_ (Or.inl ack)
        rw [show (ackConfig config).dns.get 0 = 0x08080808#32 from Vector.getElem_set_self _]
        decide
      · rename_i unacked
        exact (or_iff_right unacked).symm
    rw [message]
    refine ⟨near, fun clear => ?_⟩
    rw [inside clear, informs, overruns]

/-- A DNS server that the scan gets past. -/
def oneConfig : DhcpConfig := { lanConfig with dns := #v[0x01010101#32, 0x01000001#32] }

def informOf (mac : List Byte) : ClientMessage := ethernet mac 8#8 []

/-- An INFORM in front of the first ACK and one behind it. -/
theorem reply_print_inside_informs : ∃ h h' s s' action action' reply reply',
    h.map Prod.fst = [] ∧ h'.map Prod.fst = [(requestFor macA 0xC0A80110#32).turn, (discover macA).turn] ∧
    Run serve (Server.fresh lanPool oneConfig) (((informOf macA).turn, action) :: h) s ∧
    Run serve (Server.fresh lanPool oneConfig) (((informOf macA).turn, action') :: h') s' ∧
    action.reply = some reply ∧ action'.reply = some reply' ∧
    (∀ j ∈ printDhcpMessage.reads reply.message, j < DhcpMessage.size) ∧
    ¬ ∀ j ∈ printDhcpMessage.reads reply'.message, j < DhcpMessage.size := by
  obtain ⟨s, h, run, inputs, check⟩ := @Run.of_check _ _ _ serve (Server.fresh lanPool oneConfig)
    [(informOf macA).turn] (fun _ h => h.head?.any fun e => e.2.reply.isSome) (by decide)
  obtain ⟨s', h', run', inputs', check'⟩ := @Run.of_check _ _ _ serve (Server.fresh lanPool oneConfig)
    [(discover macA).turn, (requestFor macA 0xC0A80110#32).turn, (informOf macA).turn]
    (fun _ h => (h.head?.any fun e => e.2.reply.isSome) && acked h.tail) (by decide)
  obtain ⟨⟨_, action⟩, older, rfl, rfl, rest⟩ := List.map_eq_cons_iff.mp inputs
  obtain ⟨⟨_, action'⟩, older', rfl, rfl, rest'⟩ := List.map_eq_cons_iff.mp inputs'
  obtain ⟨replied', ack⟩ := Bool.and_eq_true_iff.mp check'
  obtain ⟨reply, replies⟩ := Option.isSome_iff_exists.mp check
  obtain ⟨reply', replies'⟩ := Option.isSome_iff_exists.mp replied'
  have clear : ClearOfOptions (informOf macA).turn.request :=
    clearOfOptions_of_within (by rw [show (informOf macA).turn.request.hlen = 6#8 by decide]; decide)
  cases List.map_eq_nil_iff.mp rest
  refine ⟨[], older', s, s', action, action', reply, reply', rfl, rest', run, run', replies, replies', ?_, ?_⟩
  · rw [(reply_print_inside_iff run replies).2 clear]
    decide
  · rw [(reply_print_inside_iff run' replies').2 clear, not_not]
    exact ⟨dispatch_ethernet macA 8#8 [], Or.inl ack⟩

end Runs

end DhcpServer
