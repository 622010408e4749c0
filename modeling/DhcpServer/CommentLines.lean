import DhcpServer.Client
import DhcpServer.ConfigSettings

/-!
# Comment lines

The reader looks for a `#` at the start of what `fgets` yields, which of a long line is at most 255
characters. What follows them is read as a line of its own, so a long comment can hold directives.
-/

namespace DhcpServer
set_option autoImplicit false
open Lib

/-- A line that starts with `#` behind optional blanks, without its newline. -/
structure Comment where
  blanks : List Char
  text : List Char
  blank : ∀ c ∈ blanks, c = ' ' ∨ c = '\t'
  unbroken : '\n' ∉ text

/-- The line of a comment. -/
def Comment.line (comment : Comment) : List Char := comment.blanks ++ '#' :: comment.text ++ ['\n']

/-- The pieces of the line behind the one with the `#`. -/
def Comment.laterPieces (comment : Comment) : List (List Char) :=
  (filePieces comment.line).drop (comment.blanks.length / 255 + 1)

/-- Between `front` and `back` a line changes neither the value returned nor what is set. -/
def NoEffect (frame : StackFrame) (front line back : List Char) (config : DhcpConfig) (pool : IpPoolInd) : Prop :=
  (readConfigDhcp frame (some (front ++ line ++ back)) config pool).1 =
      (readConfigDhcp frame (some (front ++ back)) config pool).1 ∧
    (readConfigDhcp frame (some (front ++ line ++ back)) config pool).2.settings =
      (readConfigDhcp frame (some (front ++ back)) config pool).2.settings

theorem NoEffect.config_eq {frame : StackFrame} {front line back : List Char} {config : DhcpConfig}
    {pool : IpPoolInd} (none : NoEffect frame front line back config pool) :
    (readConfigDhcp frame (some (front ++ line ++ back)) config pool).2.config =
      (readConfigDhcp frame (some (front ++ back)) config pool).2.config := congrArg Prod.fst none.2

section Comments
variable {frame : StackFrame} {blanks rest : List Char} {lines pieces : List (List Char)}

theorem cString_blanks (blank : ∀ c ∈ blanks, c = ' ' ∨ c = '\t') :
    cString (blanks ++ rest) = blanks ++ cString rest := by
  apply List.takeWhile_append_of_pos
  intro c member
  rcases blank c member with rfl | rfl <;> rfl

theorem dropWhile_blanks (blank : ∀ c ∈ blanks, c = ' ' ∨ c = '\t') :
    (blanks ++ rest).dropWhile (fun c => c == ' ' || c == '\t') = rest.dropWhile fun c => c == ' ' || c == '\t' := by
  apply List.dropWhile_append_of_pos
  intro c member
  rcases blank c member with rfl | rfl <;> rfl

theorem lineOf_blanks (blank : ∀ c ∈ blanks, c = ' ' ∨ c = '\t') : lineOf (blanks ++ rest) = lineOf rest := by
  rw [lineOf, cString_blanks blank, dropWhile_blanks blank]
  rfl

/-- Up to the piece with the `#` there is no keyword. -/
theorem unscanned_to_mark (blank : ∀ c ∈ blanks, c = ' ' ∨ c = '\t') :
    ∀ piece ∈ (filePieces (blanks ++ '#' :: rest)).take (blanks.length / 255 + 1), hasKeyword piece = false := by
  induction size : blanks.length using Nat.strongRecOn generalizing blanks with
  | ind n ih =>
    have unbroken : '\n' ∉ blanks := by
      intro newline
      rcases blank _ newline with newline | newline <;> cases newline
    rw [filePieces_cons (by simp), List.take_succ_cons, List.forall_mem_cons]
    by_cases long : 255 ≤ n
    · -- The piece is blank, and fewer blanks are left.
      obtain ⟨first, others, rfl, full⟩ : ∃ first others, blanks = first ++ others ∧ first.length = 255 :=
        ⟨blanks.take 255, blanks.drop 255, (List.take_append_drop 255 blanks).symm, by rw [List.length_take]; omega⟩
      obtain ⟨blankFirst, blankOthers⟩ := List.forall_mem_append.mp blank
      rw [List.length_append] at size
      have turns : n / 255 = others.length / 255 + 1 := by omega
      have unbroken' : '\n' ∉ first := fun newline => unbroken (List.mem_append_left others newline)
      rw [List.append_assoc, takeLine_unbroken unbroken' (by omega), full, turns]
      refine ⟨?_, ih others.length (by omega) blankOthers rfl⟩
      rw [Nat.sub_self, takeLine, hasKeyword, lineOf_blanks blankFirst]
      rfl
    · have turns : n / 255 = 0 := Nat.div_eq_of_lt (by omega)
      obtain ⟨room, left⟩ : ∃ k, 255 - blanks.length = k + 1 := ⟨254 - blanks.length, by omega⟩
      rw [takeLine_unbroken unbroken (by omega), left, turns]
      refine ⟨?_, List.forall_mem_nil _⟩
      rw [hasKeyword, lineOf_blanks blank]
      rfl

theorem linesOf_unscanned (unscanned : ∀ piece ∈ pieces, hasKeyword piece = false) : linesOf pieces = [] := by
  rw [linesOf, List.map_eq_nil_iff, List.filter_eq_nil_iff]
  intro piece member scanned
  rw [unscanned piece member] at scanned
  cases scanned

/-- Pieces without a keyword set nothing. -/
theorem settingsFrom_unscanned (unscanned : ∀ piece ∈ pieces, hasKeyword piece = false) :
    settingsFrom frame lines pieces = [] := by
  induction pieces generalizing lines with
  | nil => rfl
  | cons piece pieces ih =>
    obtain ⟨first, others⟩ := List.forall_mem_cons.mp unscanned
    rw [settingsFrom, settingOf_other first, ih others]
    rfl

/-- Of a comment its later pieces are scanned. -/
theorem settingsFrom_comment (comment : Comment) : linesOf (filePieces comment.line) = linesOf comment.laterPieces ∧
    settingsFrom frame lines (filePieces comment.line) = settingsFrom frame lines comment.laterPieces := by
  have upToMark : ∀ piece ∈ (filePieces comment.line).take (comment.blanks.length / 255 + 1),
      hasKeyword piece = false := by
    rw [Comment.line, List.append_assoc]
    exact unscanned_to_mark comment.blank
  rw [← List.take_append_drop (comment.blanks.length / 255 + 1) (filePieces comment.line), linesOf_append,
    settingsFrom_append, linesOf_unscanned upToMark, settingsFrom_unscanned upToMark, List.append_nil]
  exact ⟨rfl, rfl⟩

/-- What is set last behind other scans: only of `subnet` it can be something else. -/
theorem latest_settingsFrom_iff (lines' : List (List Char)) :
    (∀ x, Latest Setting.kind x (settingsFrom frame lines pieces) ↔
        Latest Setting.kind x (settingsFrom frame lines' pieces)) ↔
      ∀ address netmask, Latest Setting.kind (.subnet address netmask) (settingsFrom frame lines pieces) ↔
        Latest Setting.kind (.subnet address netmask) (settingsFrom frame lines' pieces) := by
  constructor
  · exact fun same address netmask => same (.subnet address netmask)
  · intro subnets x
    have carried {ls ls' : List (List Char)} (other : x.kind ≠ .subnet)
        (latest : Latest Setting.kind x (settingsFrom frame ls pieces)) :
        Latest Setting.kind x (settingsFrom frame ls' pieces) := by
      obtain ⟨y, alike, latest'⟩ := latest.forall₂ (fun _ _ alike => alike.1) (settingsFrom_alike ls')
      exact alike.2 other ▸ latest'
    cases x with
    | subnet address netmask => exact subnets address netmask
    | range _ _ => exact ⟨carried nofun, carried nofun⟩
    | defaultLeaseTime _ => exact ⟨carried nofun, carried nofun⟩
    | maxLeaseTime _ => exact ⟨carried nofun, carried nofun⟩
    | domainNameServers _ _ => exact ⟨carried nofun, carried nofun⟩

end Comments

/-- **When a comment line has no effect**: each setting that its pieces behind the one with the `#` make, the
last of its kind, is made again by a line behind it or was in force in front of it; and the last subnet line
behind it sets the same as without their scans, which it does unless it uses an array it does not assign. -/
theorem comment_noEffect_iff (frame : StackFrame) {front : List Char} (position : EndsLine front) (comment : Comment)
    (back : List Char) (config : DhcpConfig) (pool : IpPoolInd) :
    NoEffect frame front comment.line back config pool ↔
      (∀ x, Latest Setting.kind x (settingsFrom frame (linesOf (filePieces front)) comment.laterPieces) →
        (∃ y ∈ settingsFrom frame (linesOf (filePieces front)) (filePieces back), y.kind = x.kind) ∨
          InForce Setting.apply x (applyAll Setting.apply (config, pool) (settingsOf frame front))) ∧
      ∀ address netmask,
        Latest Setting.kind (.subnet address netmask) (settingsFrom frame
          (linesOf (filePieces front) ++ linesOf comment.laterPieces) (filePieces back)) ↔
        Latest Setting.kind (.subnet address netmask)
          (settingsFrom frame (linesOf (filePieces front)) (filePieces back)) := by
  have ends : EndsLine (front ++ comment.line) := by
    rw [Comment.line, ← List.append_assoc]
    exact endsLine_concat
  have returned : (readConfigDhcp frame (some (front ++ comment.line ++ back)) config pool).1 =
      (readConfigDhcp frame (some (front ++ back)) config pool).1 := rfl
  obtain ⟨scans, settings⟩ := @settingsFrom_comment frame (linesOf (filePieces front)) comment
  have kinds : (settingsFrom frame (linesOf (filePieces front)) (filePieces back)).map Setting.kind =
      (settingsFrom frame (linesOf (filePieces front) ++ linesOf comment.laterPieces) (filePieces back)).map
        Setting.kind :=
    map_kind_of_forall₂ (fun _ _ alike => alike.1) (settingsFrom_alike _)
  have again : ∀ x : Setting,
      (∃ y ∈ settingsFrom frame (linesOf (filePieces front) ++ linesOf comment.laterPieces) (filePieces back),
        y.kind = x.kind) ↔
      ∃ y ∈ settingsFrom frame (linesOf (filePieces front)) (filePieces back), y.kind = x.kind :=
    fun x => ⟨occurs_of_map kinds.symm, occurs_of_map kinds⟩
  rw [NoEffect, readConfigDhcp_settings, readConfigDhcp_settings, settingsOf_append ends, settingsOf_append position,
    settingsOf_append position, filePieces_append position, linesOf_append, applyAll_append, applyAll_append,
    applyAll_append, settings, scans, applyAll_replace_iff setting_overwriting setting_telling kinds.symm,
    latest_settingsFrom_iff, and_iff_right returned]
  simp only [again]

theorem unblank : ∀ c ∈ ([] : List Char), c = ' ' ∨ c = '\t' := nofun

theorem unbroken_long : '\n' ∉ List.replicate 254 '-' ++ "max-lease-time 1".toList := by
  rw [List.mem_append, List.mem_replicate]
  decide

/-- A rule of 254 dashes in front of a directive. -/
def longComment : Comment := ⟨[], List.replicate 254 '-' ++ "max-lease-time 1".toList, unblank, unbroken_long⟩

/-- In front of a line that sets the lease time anew it does no harm. -/
theorem comment_noEffect_repeated :
    NoEffect adjacentFrame [] longComment.line "max-lease-time 600".toList lanConfig lanPool := by
  refine (comment_noEffect_iff adjacentFrame endsLine_nil longComment _ lanConfig lanPool).mpr ?_
  have front : linesOf (filePieces []) = [] := rfl
  have hidden : settingsFrom adjacentFrame [] longComment.laterPieces = [.maxLeaseTime 1#32] := by decide +kernel
  have behind : ∀ lines, settingsFrom adjacentFrame lines (filePieces "max-lease-time 600".toList) =
      [.maxLeaseTime 600#32] := fun lines => rfl
  rw [front, hidden, behind, behind]
  refine ⟨fun x latest => Or.inl ⟨_, List.mem_cons_self, ?_⟩, fun address netmask => Iff.rfl⟩
  rw [List.mem_singleton.mp latest.mem]
  rfl

/-- The comment sets the lease time. -/
theorem long_comment_read :
    (readConfigDhcp adjacentFrame (some ([] ++ longComment.line ++ [])) lanConfig lanPool).2.config.maxLeaseTime =
        1#32 ∧
      (readConfigDhcp adjacentFrame (some ([] ++ [])) lanConfig lanPool).2.config.maxLeaseTime = 7200#32 ∧
      ¬ NoEffect adjacentFrame [] longComment.line [] lanConfig lanPool := by
  have read : (readConfigDhcp adjacentFrame (some ([] ++ longComment.line ++ [])) lanConfig
      lanPool).2.config.maxLeaseTime = 1#32 := by decide +kernel
  have kept : (readConfigDhcp adjacentFrame (some ([] ++ [])) lanConfig lanPool).2.config.maxLeaseTime = 7200#32 := rfl
  refine ⟨read, kept, fun none => ?_⟩
  rw [none.config_eq, kept] at read
  exact absurd read (by decide)

end DhcpServer
