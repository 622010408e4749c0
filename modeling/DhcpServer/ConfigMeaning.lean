import DhcpServer.ConfigSettings

/-!
# When two configuration files mean the same

What a file sets is told by the last setting of each kind that its pieces make. Two files set the same
from whatever the structures held exactly when these agree; and blocks of lines can trade places in
every file exactly when they agree on the kinds they share. The setting of a subnet line is what the
reader makes of it: the address is that of the array behind the store to `netmask`, not that of the line.
-/

namespace DhcpServer
set_option autoImplicit false
open Lib

/-- Whatever `main` passes, the files leave the same in it. -/
def SameMeaning (frame : StackFrame) (file file' : List Char) : Prop :=
  ∀ config pool, (readConfigDhcp frame (some file) config pool).2.settings =
    (readConfigDhcp frame (some file') config pool).2.settings

section Meaning
variable {frame : StackFrame} {file file' front back first second : List Char} {lines : List (List Char)}

theorem sameMeaning_iff_applyAll : SameMeaning frame file file' ↔
    ∀ v, applyAll Setting.apply v (settingsOf frame file) = applyAll Setting.apply v (settingsOf frame file') := by
  constructor
  · rintro same ⟨config, pool⟩
    rw [← readConfigDhcp_settings, ← readConfigDhcp_settings]
    exact same config pool
  · intro same config pool
    rw [readConfigDhcp_settings, readConfigDhcp_settings]
    exact same (config, pool)

/-- The settings of two blocks of complete lines in front of complete lines. -/
theorem settingsFrom_blocks (ends : EndsLine first) (ends' : EndsLine second)
    (whole : ∀ piece ∈ filePieces first, Complete piece) (whole' : ∀ piece ∈ filePieces second, Complete piece)
    (wholeBack : ∀ piece ∈ filePieces back, Complete piece) :
    settingsFrom frame lines (filePieces (first ++ (second ++ back))) =
      settingsOf frame first ++ settingsOf frame second ++ settingsOf frame back := by
  rw [filePieces_append ends, filePieces_append ends', settingsFrom_append, settingsFrom_append,
    settingsFrom_complete whole [], settingsFrom_complete whole' [], settingsFrom_complete wholeBack [],
    List.append_assoc]
  rfl

end Meaning

/-- **Two files mean the same exactly when each kind is set last to the same in both**, or in neither. -/
theorem config_same_iff (frame : StackFrame) (file file' : List Char) : SameMeaning frame file file' ↔
    ∀ x, Latest Setting.kind x (settingsOf frame file) ↔ Latest Setting.kind x (settingsOf frame file') :=
  sameMeaning_iff_applyAll.trans (applyAll_eq_iff setting_overwriting setting_telling)

-- With `subnet` behind `netmask` the subnet of the line is lost: both are read as 5.255.0.0.
example : settingsOf adjacentFrame "subnet 192.168.1.0 netmask 255.255.255.0".toList =
      [.subnet 0x05FF0000#32 0xFFFFFF00#32] ∧
    settingsOf adjacentFrame "subnet 10.0.0.0 netmask 255.255.255.0".toList =
      [.subnet 0x05FF0000#32 0xFFFFFF00#32] := by decide +kernel

/-- **Blocks of whole lines can trade places in every file exactly when they agree on the kinds they
share**, where the subnet lines of the blocks and behind them have both their arguments: one that has not
can tell what was scanned before it. -/
theorem config_swap_iff (frame : StackFrame) {first second : List Char} (ends : EndsLine first)
    (ends' : EndsLine second) (whole : ∀ piece ∈ filePieces first, Complete piece)
    (whole' : ∀ piece ∈ filePieces second, Complete piece) :
    (∀ front back, EndsLine front → (∀ piece ∈ filePieces back, Complete piece) →
        SameMeaning frame (front ++ (first ++ (second ++ back))) (front ++ (second ++ (first ++ back)))) ↔
      Agree Setting.kind (settingsOf frame first) (settingsOf frame second) := by
  rw [← applyAll_swap_iff setting_overwriting setting_telling]
  have nothing : ∀ piece ∈ filePieces [], Complete piece := List.forall_mem_nil _
  constructor
  · intro swaps v
    have same := sameMeaning_iff_applyAll.mp (swaps [] [] endsLine_nil nothing) v
    rw [List.nil_append, List.nil_append, settingsOf, settingsOf, settingsFrom_blocks ends ends' whole whole' nothing,
      settingsFrom_blocks ends' ends whole' whole nothing] at same
    have empty : settingsOf frame [] = [] := rfl
    rwa [empty, List.append_nil, List.append_nil] at same
  · intro same front back endsFront wholeBack
    refine sameMeaning_iff_applyAll.mpr fun v => ?_
    have swapped := same (applyAll Setting.apply v (settingsOf frame front))
    rw [settingsOf_append endsFront, settingsOf_append endsFront,
      settingsFrom_blocks ends ends' whole whole' wholeBack, settingsFrom_blocks ends' ends whole' whole wholeBack,
      applyAll_append, applyAll_append, swapped, ← applyAll_append, ← applyAll_append]

def subnetLine : List Char := "subnet 10.0.0.0 netmask 255.255.255.0".toList ++ ['\n']

def maxLine : List Char := "max-lease-time 7200;".toList ++ ['\n']

theorem config_swap_subnet : SameMeaning adjacentFrame
    (maxLine ++ (subnetLine ++ (maxLine ++ subnetLine))) (maxLine ++ (maxLine ++ (subnetLine ++ subnetLine))) := by
  have subnet : filePieces subnetLine = [subnetLine] := rfl
  have max : filePieces maxLine = [maxLine] := rfl
  have whole : ∀ piece ∈ filePieces subnetLine, Complete piece := by
    rw [subnet, List.forall_mem_singleton]
    exact fun _ => ⟨"10.0.0.0".toList, "255.255.255.0".toList, rfl⟩
  have whole' : ∀ piece ∈ filePieces maxLine, Complete piece := by
    rw [max, List.forall_mem_singleton]
    rintro ⟨⟩
  refine (@config_swap_iff adjacentFrame subnetLine maxLine endsLine_concat endsLine_concat whole whole').mpr ?_
    maxLine subnetLine endsLine_concat whole
  have first : settingsOf adjacentFrame subnetLine = [.subnet 0x05FF0000#32 0xFFFFFF00#32] := by decide +kernel
  have second : settingsOf adjacentFrame maxLine = [.maxLeaseTime 7200#32] := rfl
  intro x y latest latest' kinds
  have memberX := latest.mem
  have memberY := latest'.mem
  rw [first, List.mem_singleton] at memberX
  rw [second, List.mem_singleton] at memberY
  rw [memberX, memberY] at kinds
  cases kinds

end DhcpServer
