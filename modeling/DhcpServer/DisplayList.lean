import DhcpServer.Client
import DhcpServer.Lib.LineText
import DhcpServer.MacAddress

/-!
# The printed binding list (`display_binding_list`)

`send_DHCP_Offer` prints the whole list into the log file. A printout tells the bindings apart in everything it
shows: their order, addresses, identifiers, statuses, and the times as far as `ctime` writes them.
-/

namespace DhcpServer
set_option autoImplicit false
open Lib

/-- The values of the `enum`. -/
def BindingStatus.number : BindingStatus → Nat
  | .empty => 0
  | .associated => 1
  | .pending => 2
  | .expired => 3
  | .released => 4

/-- A line of the printout. -/
def printLine (name : String) (value : List Char) : List Char := name.toList ++ value ++ ['\n']

section Source
variable (ctime : Int → List Char)

/-- One turn of the loop. -/
def elementText (index : Nat) (item : IpBinding) : List Char :=
  printLine "Element " (Nat.toDigits 10 index ++ [':']) ++
  printLine "  Address: " (quad item.address) ++
  printLine "  CID Identifier Length: " (Nat.toDigits 10 item.cident.bytes.length) ++
  printLine "  CID Identifier: " (hexText true item.cident.bytes) ++
  ("  Binding Time: ".toList ++ ctime item.bindingTime) ++
  ("  Lease Time: ".toList ++ ctime item.leaseTime) ++
  printLine "  Status: " (Nat.toDigits 10 item.status.number) ++
  printLine "  Is Static: " (if item.isStatic = .dynamic then "No" else "Yes").toList ++
  printLine "----------------------" []

/-- The loop of `display_binding_list`. -/
def elementsText : Nat → BindingList → List Char
  | _, [] => []
  | index, item :: rest => elementText ctime index item ++ elementsText (index + 1) rest

/-- `display_binding_list`. -/
def displayBindingList (list : BindingList) : List Char :=
  elementsText ctime 0 list ++ if list.length = 0 then printLine "Lista este goalĂ." [] else []

/-- What a printout shows of a binding. -/
structure Shown where
  address : BitVec 32
  cident : ClientIdent
  bindingTime : List Char
  leaseTime : List Char
  status : BindingStatus
  dynamic : Bool

def shown (b : IpBinding) : Shown where
  address := b.address
  cident := b.cident
  bindingTime := ctime b.bindingTime
  leaseTime := ctime b.leaseTime
  status := b.status
  dynamic := b.isStatic == .dynamic

/-- `ctime` writes lines for the times of the binding. -/
structure TimesPrinted (b : IpBinding) : Prop where
  bindingTime : IsLine (ctime b.bindingTime)
  leaseTime : IsLine (ctime b.leaseTime)

end Source

/-- The lines of one turn. -/
def Shown.lines (index : Nat) (x : Shown) : List (List Char) :=
  ["Element ".toList ++ (Nat.toDigits 10 index ++ [':']),
    "  Address: ".toList ++ quad x.address,
    "  CID Identifier Length: ".toList ++ Nat.toDigits 10 x.cident.bytes.length,
    "  CID Identifier: ".toList ++ hexText true x.cident.bytes,
    "  Binding Time: ".toList ++ x.bindingTime.dropLast,
    "  Lease Time: ".toList ++ x.leaseTime.dropLast,
    "  Status: ".toList ++ Nat.toDigits 10 x.status.number,
    "  Is Static: ".toList ++ (if x.dynamic then "No" else "Yes").toList,
    "----------------------".toList ++ []]

section Lines
variable {ctime : Int → List Char} {index : Nat} {b : IpBinding} {x x' : Shown} {list list' : BindingList}

theorem printLine_eq (name : String) (value : List Char) :
    printLine name value = linesText [name.toList ++ value] := by
  rw [printLine, linesText, List.flatMap_singleton]

theorem timeLine_eq (name : String) {text : List Char} (isLine : IsLine text) :
    name.toList ++ text = linesText [name.toList ++ text.dropLast] := by
  rw [linesText, List.flatMap_singleton, List.append_assoc, ← isLine.dropLast.2]

theorem elementText_lines (printed : TimesPrinted ctime b) :
    elementText ctime index b = linesText ((shown ctime b).lines index) := by
  rw [elementText, timeLine_eq _ printed.bindingTime, timeLine_eq _ printed.leaseTime]
  simp only [printLine_eq, ← linesText_append, List.cons_append, List.nil_append]
  simp only [Shown.lines, shown, beq_iff_eq]

theorem unbroken_digits (n : Nat) : Unbroken (Nat.toDigits 10 n) :=
  fun member => absurd (digits_toDigits n _ member) (by decide)

theorem quad_injective : Function.Injective quad := by
  intro a a' same
  have read := inetAton_quad_alone a
  rw [same, inetAton_quad_alone] at read
  exact (Option.some.inj read).symm

theorem newline_hexText (bs : List Byte) : '\n' ∉ hexText true bs := by
  rw [hexText, List.mem_flatMap]
  rintro ⟨b, -, member⟩
  exact newline_hexByte b member

/-- The times of a binding are shown as lines. -/
structure Shown.Lined (x : Shown) : Prop where
  bindingTime : IsLine x.bindingTime
  leaseTime : IsLine x.leaseTime

theorem lines_unbroken (lined : x.Lined) : ∀ line ∈ x.lines index, Unbroken line := by
  rw [Shown.lines]
  simp only [List.forall_mem_cons, unbroken_append]
  refine ⟨⟨by decide, unbroken_digits index, by decide⟩, ⟨by decide, ?_⟩, ⟨by decide, unbroken_digits _⟩,
    ⟨by decide, newline_hexText _⟩, ⟨by decide, lined.bindingTime.dropLast.1⟩, ⟨by decide, lined.leaseTime.dropLast.1⟩,
    ⟨by decide, unbroken_digits _⟩, ⟨by decide, ?_⟩, ⟨by decide, List.not_mem_nil⟩, nofun⟩
  · intro member
    rcases quad_chars _ _ member with digit | dot
    · exact absurd digit (by decide)
    · exact absurd dot (by decide)
  · cases x.dynamic <;> decide

theorem number_injective {status status' : BindingStatus}
    (same : Nat.toDigits 10 status.number = Nat.toDigits 10 status'.number) : status = status' := by
  cases status <;> cases status' <;> first | rfl | exact absurd same (by decide)

theorem yesNo_injective : ∀ dynamic dynamic' : Bool, (if dynamic then "No" else "Yes").toList =
    (if dynamic' then "No" else "Yes").toList → dynamic = dynamic' := by decide

/-- The lines tell what is shown. -/
theorem lines_injective (lined : x.Lined) (lined' : x'.Lined) (same : x.lines index = x'.lines index) : x = x' := by
  obtain ⟨address, cident, bindingTime, leaseTime, status, dynamic⟩ := x
  obtain ⟨address', cident', bindingTime', leaseTime', status', dynamic'⟩ := x'
  simp only [Shown.lines, List.cons.injEq, List.append_cancel_left_eq, true_and, and_true] at same
  obtain ⟨addresses, -, idents, bindingTimes, leaseTimes, statuses, statics⟩ := same
  obtain rfl := quad_injective addresses
  obtain rfl := ClientIdent.ext (hexText_injective idents)
  obtain rfl := lined.bindingTime.eq_of_dropLast lined'.bindingTime bindingTimes
  obtain rfl := lined.leaseTime.eq_of_dropLast lined'.leaseTime leaseTimes
  obtain rfl := number_injective statuses
  obtain rfl := yesNo_injective dynamic dynamic' statics
  rfl

/-! ## The whole list -/

/-- The lines of the loop. -/
def shownLines : Nat → List Shown → List (List Char)
  | _, [] => []
  | index, x :: rest => x.lines index ++ shownLines (index + 1) rest

theorem shownLines_unbroken {xs : List Shown} (lined : ∀ x ∈ xs, x.Lined) :
    ∀ line ∈ shownLines index xs, Unbroken line := by
  induction xs generalizing index with
  | nil => exact nofun
  | cons x xs ih =>
    obtain ⟨here, others⟩ := List.forall_mem_cons.mp lined
    exact List.forall_mem_append.mpr ⟨lines_unbroken here, ih others⟩

theorem shownLines_injective {xs xs' : List Shown} (lined : ∀ x ∈ xs, x.Lined) (lined' : ∀ x ∈ xs', x.Lined)
    (same : shownLines index xs = shownLines index xs') : xs = xs' := by
  induction xs generalizing index xs' with
  | nil =>
    cases xs' with
    | nil => rfl
    | cons x' xs' => cases same
  | cons x xs ih =>
    cases xs' with
    | nil => cases same
    | cons x' xs' =>
      obtain ⟨here, others⟩ := List.forall_mem_cons.mp lined
      obtain ⟨here', others'⟩ := List.forall_mem_cons.mp lined'
      obtain ⟨turn, rest⟩ := List.append_inj same rfl
      rw [lines_injective here here' turn, ih others others' rest]

theorem elementsText_lines (printed : ∀ b ∈ list, TimesPrinted ctime b) :
    elementsText ctime index list = linesText (shownLines index (list.map (shown ctime))) := by
  induction list generalizing index with
  | nil => rfl
  | cons b rest ih =>
    obtain ⟨here, others⟩ := List.forall_mem_cons.mp printed
    rw [elementsText, elementText_lines here, ih others, List.map_cons, shownLines, linesText_append]

theorem shown_lined (printed : ∀ b ∈ list, TimesPrinted ctime b) : ∀ x ∈ list.map (shown ctime), x.Lined :=
  List.forall_mem_map.mpr fun b member => ⟨(printed b member).bindingTime, (printed b member).leaseTime⟩

/-- The line for an empty list is not the first one of any other. -/
theorem display_nil_ne {rest : BindingList} :
    displayBindingList ctime [] ≠ displayBindingList ctime (b :: rest) := by
  intro same
  have first := congrArg List.head? same
  have here : (displayBindingList ctime []).head? = some 'L' := rfl
  have there : (displayBindingList ctime (b :: rest)).head? = some 'E' := rfl
  rw [here, there] at first
  exact absurd first (by decide)

end Lines

/-- **A printout is as good as what it shows**: two lists are printed alike exactly when they have the same
bindings in the same order, but for times that `ctime` writes alike. -/
theorem display_eq_iff {ctime : Int → List Char} {list list' : BindingList}
    (printed : ∀ b ∈ list, TimesPrinted ctime b) (printed' : ∀ b ∈ list', TimesPrinted ctime b) :
    displayBindingList ctime list = displayBindingList ctime list' ↔
      list.map (shown ctime) = list'.map (shown ctime) := by
  constructor
  · intro same
    cases list with
    | nil =>
      cases list' with
      | nil => rfl
      | cons b' rest' => exact absurd same display_nil_ne
    | cons b rest =>
      cases list' with
      | nil => exact absurd same.symm display_nil_ne
      | cons b' rest' =>
        have full (b : IpBinding) (rest : BindingList) :
            displayBindingList ctime (b :: rest) = elementsText ctime 0 (b :: rest) := List.append_nil _
        rw [full, full, elementsText_lines printed, elementsText_lines printed'] at same
        have lined := shown_lined printed
        have lined' := shown_lined printed'
        exact shownLines_injective lined lined'
          (linesText_injective (shownLines_unbroken lined) (shownLines_unbroken lined') same)
  · intro same
    have length : list.length = list'.length := by
      rw [← List.length_map (shown ctime), same, List.length_map]
    rw [displayBindingList, displayBindingList, elementsText_lines printed, elementsText_lines printed', same, length]

/-- A lease from the start of the epoch to the same second. -/
def epochBinding : IpBinding := ⟨0xC0A80110#32, (discover macA).turn.ident, 0, 0, .associated, .dynamic⟩

/-- `ctime` of that second. -/
def epochText : List Char := "Thu Jan  1 00:00:00 1970\n".toList

/-- The printout tells whether the lease was released. -/
theorem display_eq_iff_released : (displayBindingList (fun _ => epochText) [epochBinding] =
      displayBindingList (fun _ => epochText) [epochBinding.release] ↔
    [epochBinding].map (shown fun _ => epochText) = [epochBinding.release].map (shown fun _ => epochText)) ∧
    displayBindingList (fun _ => epochText) [epochBinding] ≠
      displayBindingList (fun _ => epochText) [epochBinding.release] := by
  have isLine : IsLine epochText := ⟨"Thu Jan  1 00:00:00 1970".toList, by decide, rfl⟩
  have alike : displayBindingList (fun _ => epochText) [epochBinding] =
      displayBindingList (fun _ => epochText) [epochBinding.release] ↔
      [epochBinding].map (shown fun _ => epochText) = [epochBinding.release].map (shown fun _ => epochText) :=
    display_eq_iff (fun _ _ => ⟨isLine, isLine⟩) fun _ _ => ⟨isLine, isLine⟩
  refine ⟨alike, fun same => ?_⟩
  have statuses := congrArg (List.map Shown.status) (alike.mp same)
  exact absurd statuses (by decide)

end DhcpServer
