import DhcpServer.ConfigReader
import DhcpServer.Lib.Overwrite

/-!
# What a configuration file sets

Reading a file amounts to the settings its pieces make, first to last: a piece makes none when its
keyword is unknown or a scan comes short, and else sets the fields of its directive whatever they were.
The router is a field of none. Of the lines in front only those of `subnet` know anything: what an array
holds that nothing was stored to is up to the scans before.
-/

namespace DhcpServer
set_option autoImplicit false
open Lib

/-- What a line can set. -/
inductive Setting where
  | range (ipStart ipEnd : BitVec 32)
  | defaultLeaseTime (seconds : BitVec 32)
  | maxLeaseTime (seconds : BitVec 32)
  | subnet (address netmask : BitVec 32)
  | domainNameServers (dns1 dns2 : BitVec 32)
deriving DecidableEq

inductive SettingKind where
  | range | defaultLeaseTime | maxLeaseTime | subnet | domainNameServers
deriving DecidableEq

def Setting.kind : Setting → SettingKind
  | .range _ _ => .range
  | .defaultLeaseTime _ => .defaultLeaseTime
  | .maxLeaseTime _ => .maxLeaseTime
  | .subnet _ _ => .subnet
  | .domainNameServers _ _ => .domainNameServers

/-- The two structures the reader fills in. -/
abbrev Settings := DhcpConfig × IpPoolInd

def ReadState.settings (s : ReadState) : Settings := (s.config, s.pool)

def Setting.apply : Setting → Settings → Settings
  | .range ipStart ipEnd, (config, _) =>
    ({ config with ipPoolStart := ipStart, ipPoolEnd := ipEnd }, .ofRange ipStart ipEnd)
  | .defaultLeaseTime seconds, (config, pool) => ({ config with defaultLeaseTime := seconds }, pool)
  | .maxLeaseTime seconds, (config, pool) => ({ config with maxLeaseTime := seconds }, pool)
  | .subnet address netmask, (config, pool) => ({ config with subnet := address, netmask := netmask }, pool)
  | .domainNameServers dns1 dns2, (config, pool) => ({ config with dns := #v[dns1, dns2] }, pool)

/-- Each kind has fields of its own. -/
theorem setting_overwriting : Overwriting Setting.kind Setting.apply where
  overwrites := by
    rintro x y ⟨config, pool⟩ same
    cases x <;> cases y <;> first | rfl | cases same
  commute := by
    rintro x y ⟨config, pool⟩ other
    cases x <;> cases y <;> first | rfl | exact (other rfl).elim
  apart := by
    rintro x y ⟨⟨_, _, _, _, _, _, _, _⟩, pool⟩ other same
    cases x <;> cases y <;> first | exact (other rfl).elim | simpa [Setting.apply] using same

/-- The setting of a kind that the structures look like. -/
def SettingKind.shown : SettingKind → Settings → Setting
  | .range, (config, _) => .range config.ipPoolStart config.ipPoolEnd
  | .defaultLeaseTime, (config, _) => .defaultLeaseTime config.defaultLeaseTime
  | .maxLeaseTime, (config, _) => .maxLeaseTime config.maxLeaseTime
  | .subnet, (config, _) => .subnet config.subnet config.netmask
  | .domainNameServers, (config, _) => .domainNameServers (config.dns.getD 0 0#32) (config.dns.getD 1 0#32)

/-- Structures with one value in all their fields. -/
def uniformSettings (a : BitVec 32) : Settings := (⟨a, a, a, a, a, #v[a, a], a, a⟩, .ofRange a a)

theorem setting_telling : Telling Setting.kind Setting.apply SettingKind.shown where
  shown_apply := by
    rintro x ⟨config, pool⟩
    cases x <;> rfl
  varies := by
    intro k
    refine ⟨uniformSettings 0#32, uniformSettings 1#32, ?_⟩
    cases k <;> decide

/-! ## The setting of a line -/

section Line
variable (frame : StackFrame) (lines : List (List Char)) (line : List Char)

/-- The address of a token that a conversion has stored. -/
def addressOf (scanned : Scanned) (i : Nat) : BitVec 32 := ntohl (inetAddr ((tokenOf scanned i).getD []))

def rangeSetting : Option Setting :=
  let scanned := sscanf "range %15s %15s" line
  if scanned.returned = 2 then some (.range (addressOf scanned 0) (addressOf scanned 1)) else none

def defaultLeaseTimeSetting : Option Setting :=
  let scanned := sscanf "default-lease-time %d" line
  if scanned.returned = 1 then some (.defaultLeaseTime (intOf scanned 0)) else none

def maxLeaseTimeSetting : Option Setting :=
  let scanned := sscanf "max-lease-time %d" line
  if scanned.returned = 1 then some (.maxLeaseTime (intOf scanned 0)) else none

/-- The arrays hold what they do behind the scans of `lines` and this one. -/
def subnetSetting : Option Setting :=
  let scanned := sscanf "subnet %15s netmask %15s" line
  if scanned.returned ≠ 0 then
    some (.subnet (ntohl (inetAddr (frame.subnet (lines ++ [line]) scanned)))
      (ntohl (inetAddr (frame.netmask (lines ++ [line]) scanned))))
  else none

def domainNameServersSetting : Option Setting :=
  let scanned := sscanf "option domain-name-servers %15s, %15s" line
  if scanned.returned = 2 then some (.domainNameServers (addressOf scanned 0) (addressOf scanned 1)) else none

/-- Of a line with the keyword of the routers nothing is ever taken. -/
def directiveSetting : Option Setting :=
  if startsWith line "range" then rangeSetting line
  else if startsWith line "default-lease-time" then defaultLeaseTimeSetting line
  else if startsWith line "max-lease-time" then maxLeaseTimeSetting line
  else if startsWith line "subnet" then subnetSetting frame lines line
  else if startsWith line "option routers" then none
  else if startsWith line "option domain-name-servers" then domainNameServersSetting line
  else none

end Line

/-- The setting of a piece of the file behind the scans of `lines`. -/
def settingOf (frame : StackFrame) (lines : List (List Char)) (buffer : List Char) : Option Setting :=
  let line := lineOf buffer
  if line = [] || line.head? = some '#' then none else directiveSetting frame lines line

/-- The settings after a line that makes one or none. -/
def make (setting : Option Setting) (v : Settings) : Settings := setting.elim v fun x => x.apply v

section Line
variable {frame : StackFrame} {lines : List (List Char)} {line buffer : List Char} {s : ReadState}

theorem readRange_settings : (readRange line s).settings = make (rangeSetting line) s.settings := by
  unfold readRange rangeSetting
  simp only
  split <;> rfl

theorem readDefaultLeaseTime_settings :
    (readDefaultLeaseTime line s).settings = make (defaultLeaseTimeSetting line) s.settings := by
  unfold readDefaultLeaseTime defaultLeaseTimeSetting
  simp only
  split <;> rfl

theorem readMaxLeaseTime_settings :
    (readMaxLeaseTime line s).settings = make (maxLeaseTimeSetting line) s.settings := by
  unfold readMaxLeaseTime maxLeaseTimeSetting
  simp only
  split <;> rfl

theorem readSubnet_settings :
    (readSubnet frame line s).settings = make (subnetSetting frame s.lines line) s.settings := by
  unfold readSubnet subnetSetting
  simp only
  split <;> rfl

theorem readDomainNameServers_settings :
    (readDomainNameServers line s).settings = make (domainNameServersSetting line) s.settings := by
  unfold readDomainNameServers domainNameServersSetting
  simp only
  split <;> rfl

/-- A line that goes on with `option` does not match `options`. -/
theorem readRouters_settings (keyword : startsWith line "option routers") :
    (readRouters line s).settings = s.settings := by
  obtain ⟨rest, rfl⟩ := List.isPrefixOf_iff_prefix.mp keyword
  rw [readRouters_none rfl]
  rfl

theorem readDirective_settings :
    (readDirective frame line s).settings = make (directiveSetting frame s.lines line) s.settings := by
  unfold readDirective directiveSetting
  split
  · exact readRange_settings
  split
  · exact readDefaultLeaseTime_settings
  split
  · exact readMaxLeaseTime_settings
  split
  · exact readSubnet_settings
  split
  · rename_i keyword
    exact readRouters_settings keyword
  split
  · exact readDomainNameServers_settings
  · rfl

/-- **A piece of the file makes its setting.** -/
theorem readLine_settings :
    (readLine frame buffer s).settings = make (settingOf frame s.lines buffer) s.settings := by
  unfold readLine settingOf
  simp only
  split
  · rfl
  · exact readDirective_settings

/-- A branch scans its line once. -/
theorem readDirective_lines : (readDirective frame line s).lines =
    s.lines ++ if keywords.any (startsWith line) then [line] else [] := by
  have known {keyword : String} (member : keyword ∈ keywords) (start : startsWith line keyword = true) :
      keywords.any (startsWith line) = true := List.any_eq_true.mpr ⟨keyword, member, start⟩
  unfold readDirective
  split
  · rename_i range
    rw [if_pos (known (by decide) range), readRange]
    split <;> rfl
  split
  · rename_i default
    rw [if_pos (known (by decide) default), readDefaultLeaseTime]
    split <;> rfl
  split
  · rename_i max
    rw [if_pos (known (by decide) max), readMaxLeaseTime]
    split <;> rfl
  split
  · rename_i subnet
    rw [if_pos (known (by decide) subnet), readSubnet]
    split <;> rfl
  split
  · rename_i routers
    rw [if_pos (known (by decide) routers), readRouters]
    split <;> rfl
  split
  · rename_i servers
    rw [if_pos (known (by decide) servers), readDomainNameServers]
    split <;> rfl
  · rename_i range default max subnet routers servers
    simp [keywords, range, default, max, subnet, routers, servers]

/-- A line without a keyword makes no setting. -/
theorem settingOf_other (other : hasKeyword buffer = false) : settingOf frame lines buffer = none := by
  rw [hasKeyword, List.any_eq_false] at other
  unfold settingOf
  simp only [keywords, List.mem_cons, List.not_mem_nil, or_false, forall_eq_or_imp, forall_eq] at other
  obtain ⟨range, default, max, subnet, routers, servers⟩ := other
  simp only [directiveSetting, if_neg range, if_neg default, if_neg max, if_neg subnet, if_neg routers,
    if_neg servers, ite_self]

theorem settingOf_subnet (keyword : startsWith (lineOf buffer) "subnet" = true) :
    settingOf frame lines buffer = subnetSetting frame lines (lineOf buffer) := by
  obtain ⟨rest, line⟩ := List.isPrefixOf_iff_prefix.mp keyword
  rw [settingOf, ← line]
  rfl

/-- Only a subnet line can depend on the scans in front of it. -/
theorem settingOf_history (other : ¬ startsWith (lineOf buffer) "subnet" = true) (lines' : List (List Char)) :
    settingOf frame lines buffer = settingOf frame lines' buffer := by
  simp only [settingOf, directiveSetting, if_neg other]

/-- A line that, if it is one of `subnet`, has both its arguments. -/
def Complete (buffer : List Char) : Prop := startsWith (lineOf buffer) "subnet" = true →
  ∃ a b, (sscanf "subnet %15s netmask %15s" (lineOf buffer)).values = [.string a, .string b]

/-- It reads no array that nothing was stored to. -/
theorem settingOf_complete (complete : Complete buffer) (lines' : List (List Char)) :
    settingOf frame lines buffer = settingOf frame lines' buffer := by
  by_cases keyword : startsWith (lineOf buffer) "subnet" = true
  · obtain ⟨a, b, values⟩ := complete keyword
    rw [settingOf_subnet keyword, settingOf_subnet keyword]
    simp only [subnetSetting, StackFrame.subnet, StackFrame.netmask, tokenOf, values]
    rfl
  · exact settingOf_history keyword lines'

end Line

/-! ## The pieces of a file -/

/-- What the `fgets` calls of the reader yield. -/
def piecesFrom : Nat → List Char → List (List Char)
  | 0, _ => []
  | fuel + 1, file =>
    match fgets 256 file with
    | none => []
    | some (buffer, rest) => buffer :: piecesFrom fuel rest

def filePieces (file : List Char) : List (List Char) := piecesFrom file.length file

/-- The lines of the pieces that are scanned. -/
def linesOf (pieces : List (List Char)) : List (List Char) := (pieces.filter hasKeyword).map lineOf

/-- The settings of pieces behind the scans of `lines`. -/
def settingsFrom (frame : StackFrame) : List (List Char) → List (List Char) → List Setting
  | _, [] => []
  | lines, buffer :: pieces =>
    (settingOf frame lines buffer).toList ++ settingsFrom frame (lines ++ linesOf [buffer]) pieces

/-- The settings of a file. -/
def settingsOf (frame : StackFrame) (file : List Char) : List Setting := settingsFrom frame [] (filePieces file)

section Pieces
variable {frame : StackFrame} {file front back buffer : List Char} {lines pieces behind : List (List Char)}
  {s : ReadState} {fuel : Nat}

theorem fgets_taken (nonempty : file ≠ []) : fgets 256 file = some (takeLine 255 file) := if_neg nonempty

theorem rest_shorter (nonempty : file ≠ []) : (takeLine 255 file).2.length < file.length :=
  fgets_shorter (fgets_taken nonempty)

/-- As many calls as there are characters are enough. -/
theorem piecesFrom_enough (enough : file.length ≤ fuel) : piecesFrom fuel file = filePieces file := by
  suffices same : ∀ k, file.length ≤ k → piecesFrom fuel file = piecesFrom k file from same _ (Nat.le_refl _)
  intro k enough'
  induction fuel generalizing file k with
  | zero =>
    obtain rfl := List.eq_nil_of_length_eq_zero (Nat.le_zero.mp enough)
    cases k <;> rfl
  | succ fuel ih =>
    by_cases empty : file = []
    · subst empty
      cases k <;> rfl
    · have shorter := rest_shorter empty
      obtain ⟨k, rfl⟩ : ∃ j, k = j + 1 := ⟨k - 1, by omega⟩
      rw [piecesFrom, piecesFrom, fgets_taken empty]
      exact congrArg _ (ih (by omega) k (by omega))

/-- A file is cut into its first piece and the pieces of the rest. -/
theorem filePieces_cons (nonempty : file ≠ []) :
    filePieces file = (takeLine 255 file).1 :: filePieces (takeLine 255 file).2 := by
  have shorter := rest_shorter nonempty
  rw [← @piecesFrom_enough file ((takeLine 255 file).2.length + 1 + file.length) (by omega), Nat.add_right_comm,
    piecesFrom, fgets_taken nonempty]
  exact congrArg _ (piecesFrom_enough (Nat.le_add_right _ _))

/-- **Whole lines in front are cut apart from what follows.** -/
theorem filePieces_append (ends : EndsLine front) :
    filePieces (front ++ back) = filePieces front ++ filePieces back := by
  induction size : front.length using Nat.strongRecOn generalizing front with
  | ind n ih =>
    by_cases empty : front = []
    · subst empty
      rfl
    · obtain ⟨endsRest, taken⟩ := @takeLine_endsLine back front 255 empty ends
      have more : front ++ back ≠ [] := List.append_ne_nil_of_left_ne_nil empty back
      rw [filePieces_cons more, taken, filePieces_cons empty,
        ih _ (by rw [← size]; exact rest_shorter empty) endsRest rfl]
      rfl

theorem linesOf_append : linesOf (pieces ++ behind) = linesOf pieces ++ linesOf behind := by
  rw [linesOf, List.filter_append, List.map_append]
  rfl

theorem settingsFrom_append : settingsFrom frame lines (pieces ++ behind) =
    settingsFrom frame lines pieces ++ settingsFrom frame (lines ++ linesOf pieces) behind := by
  induction pieces generalizing lines with
  | nil => rw [List.nil_append, settingsFrom, List.nil_append, linesOf, List.filter_nil, List.map_nil, List.append_nil]
  | cons buffer pieces ih =>
    have scanned : linesOf (buffer :: pieces) = linesOf [buffer] ++ linesOf pieces := @linesOf_append [buffer] pieces
    rw [List.cons_append, settingsFrom, settingsFrom, ih, scanned, List.append_assoc, List.append_assoc]

/-- Settings of one line: of a subnet line only the kind is told. -/
def Setting.Alike (x y : Setting) : Prop := x.kind = y.kind ∧ (x.kind ≠ .subnet → x = y)

theorem settingsFrom_alike (lines' : List (List Char)) :
    List.Forall₂ Setting.Alike (settingsFrom frame lines pieces) (settingsFrom frame lines' pieces) := by
  induction pieces generalizing lines lines' with
  | nil => exact .nil
  | cons buffer pieces ih =>
    rw [settingsFrom, settingsFrom]
    by_cases keyword : startsWith (lineOf buffer) "subnet" = true
    · rw [settingOf_subnet keyword, settingOf_subnet keyword, subnetSetting, subnetSetting]
      split
      · exact .cons ⟨rfl, fun told => (told rfl).elim⟩ (ih _)
      · exact ih _
    · rw [settingOf_history keyword lines']
      cases settingOf frame lines' buffer with
      | none => exact ih _
      | some x => exact .cons ⟨rfl, fun _ => rfl⟩ (ih _)

theorem settingsFrom_complete (complete : ∀ buffer ∈ pieces, Complete buffer) (lines' : List (List Char)) :
    settingsFrom frame lines pieces = settingsFrom frame lines' pieces := by
  induction pieces generalizing lines lines' with
  | nil => rfl
  | cons buffer pieces ih =>
    obtain ⟨first, others⟩ := List.forall_mem_cons.mp complete
    rw [settingsFrom, settingsFrom, settingOf_complete first lines', ih others]

theorem settingsOf_append (ends : EndsLine front) : settingsOf frame (front ++ back) =
    settingsOf frame front ++ settingsFrom frame (linesOf (filePieces front)) (filePieces back) := by
  rw [settingsOf, filePieces_append ends, settingsFrom_append]
  rfl

/-- A piece with a keyword is scanned, and no other. -/
theorem readLine_lines : (readLine frame buffer s).lines = s.lines ++ linesOf [buffer] := by
  have one : linesOf [buffer] = if keywords.any (startsWith (lineOf buffer)) then [lineOf buffer] else [] := by
    rw [linesOf, List.filter_cons, hasKeyword]
    split <;> rfl
  unfold readLine
  simp only
  split
  · rename_i passed
    have none : linesOf [buffer] = [] := by
      rw [one, if_neg]
      rcases Bool.or_eq_true_iff.mp passed with empty | comment
      · rw [of_decide_eq_true empty]
        decide
      · obtain ⟨rest, start⟩ := List.head?_eq_some_iff.mp (of_decide_eq_true comment)
        rw [start]
        rintro ⟨⟩
    rw [none, List.append_nil]
  · rw [one]
    exact readDirective_lines

theorem readLines_settings : (readLines frame fuel file s).settings =
    applyAll Setting.apply s.settings (settingsFrom frame s.lines (piecesFrom fuel file)) := by
  induction fuel generalizing file s with
  | zero => rfl
  | succ fuel ih =>
    rw [readLines, piecesFrom]
    cases fgets 256 file with
    | none => rfl
    | some piece =>
      obtain ⟨buffer, rest⟩ := piece
      simp only
      rw [ih, readLine_settings, readLine_lines, settingsFrom, applyAll_append]
      cases settingOf frame s.lines buffer <;> rfl

/-- **Reading a file makes its settings.** -/
theorem readConfigDhcp_settings (frame : StackFrame) (file : List Char) (config : DhcpConfig) (pool : IpPoolInd) :
    (readConfigDhcp frame (some file) config pool).2.settings =
      applyAll Setting.apply (config, pool) (settingsOf frame file) := readLines_settings

end Pieces

end DhcpServer
