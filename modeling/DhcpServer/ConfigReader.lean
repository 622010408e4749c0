import DhcpServer.Lib.Inet
import DhcpServer.State

/-!
# Reading the configuration (`read_config_dhcp`)

The reader takes the file in pieces of at most 255 characters and looks at the start of each for
one of six keywords. Its arrays are local to a branch, and that of `subnet` uses them where the
language leaves open what they hold: when no conversion has assigned them, and when the token for
`netmask[6]` has run on into `subnet`, where it ends, as it has fifteen characters at most. What they hold
there is a parameter (`StackFrame`).
-/

namespace DhcpServer
set_option autoImplicit false
open Lib

/-- A token that `sscanf` stored, and the size of the array it was stored to. -/
structure Store where
  token : List Char
  capacity : Nat
deriving DecidableEq

/-- The token and its NUL fit the array. -/
def Store.fits (store : Store) : Prop := store.token.length < store.capacity

instance (store : Store) : Decidable store.fits := inferInstanceAs (Decidable (_ < _))

/-- The arrays of the `subnet` branch. -/
inductive SubnetArray where
  | subnet | netmask
deriving DecidableEq

/-- What the arrays hold where only the stack of the call can tell. -/
structure StackFrame where
  /-- An array that no conversion of the line has assigned, behind the scans of these lines. -/
  unassigned : List (List Char) → SubnetArray → List Char
  /-- `subnet`, with its own token, behind a token that is too long for `netmask`. -/
  overrun : List Char → List Char → List Char

/-- The frame of a build that puts `subnet` right behind `netmask`, on a stack of zeros that stay. -/
def adjacentFrame : StackFrame where
  unassigned _ _ := []
  overrun _ netmask := netmask.drop 6

instance : Inhabited StackFrame := ⟨adjacentFrame⟩

/-- What the reader has set so far, the lines it has scanned, the tokens it has stored, and whether it
has read an array that no conversion had assigned. -/
structure ReadState where
  config : DhcpConfig
  pool : IpPoolInd
  lines : List (List Char)
  stores : List Store
  unassigned : Bool

/-- A scan of a line, and its stores. -/
def ReadState.scan (s : ReadState) (line : List Char) (stores : List Store) : ReadState :=
  { s with lines := s.lines ++ [line], stores := s.stores ++ stores }

/-- The `i`-th conversion of a scan, if it was one of a token. -/
def tokenOf (scanned : Scanned) (i : Nat) : Option (List Char) :=
  match scanned.values[i]? with
  | some (.string token) => some token
  | _ => none

/-- The `i`-th conversion of a scan as an `int`: the low bits of the number. -/
def intOf (scanned : Scanned) (i : Nat) : BitVec 32 :=
  match scanned.values[i]? with
  | some (.decimal n) => BitVec.ofInt 32 n
  | _ => 0#32

/-- The tokens of a scan, to arrays of the given sizes. -/
def storesOf (scanned : Scanned) (capacities : List Nat) : List Store :=
  (scanned.values.zip capacities).filterMap fun (value, capacity) => match value with
    | .string token => some ⟨token, capacity⟩
    | .decimal _ => none

/-- `subnet` when it is read: the netmask, stored after it, may have run into it. -/
def StackFrame.subnet (frame : StackFrame) (lines : List (List Char)) (scanned : Scanned) : List Char :=
  match tokenOf scanned 0, tokenOf scanned 1 with
  | none, _ => frame.unassigned lines .subnet
  | some subnet, none => subnet
  | some subnet, some netmask => if netmask.length < 6 then subnet else frame.overrun subnet netmask

/-- `netmask` when it is read: a token that overruns it is still there from its start to its NUL. -/
def StackFrame.netmask (frame : StackFrame) (lines : List (List Char)) (scanned : Scanned) : List Char :=
  (tokenOf scanned 1).getD (frame.unassigned lines .netmask)

section Directives
variable (frame : StackFrame) (line : List Char) (s : ReadState)

-- Where a guard asks for every conversion, every array is assigned, and the `getD` never falls back.

def readRange : ReadState :=
  let scanned := sscanf "range %15s %15s" line
  let s := s.scan line (storesOf scanned [16, 16])
  if scanned.returned = 2 then
    let ipStart := (tokenOf scanned 0).getD []
    let ipEnd := (tokenOf scanned 1).getD []
    let config := { s.config with
      ipPoolStart := ntohl (inetAddr ipStart)
      ipPoolEnd := ntohl (inetAddr ipEnd) }
    { s with
      config := config
      pool := { ipFirst := config.ipPoolStart, ipLast := config.ipPoolEnd, ipCurrent := config.ipPoolStart } }
  else
    s

def readDefaultLeaseTime : ReadState :=
  let scanned := sscanf "default-lease-time %d" line
  let s := s.scan line []
  if scanned.returned = 1 then
    { s with config := { s.config with defaultLeaseTime := intOf scanned 0 } }
  else
    s

def readMaxLeaseTime : ReadState :=
  let scanned := sscanf "max-lease-time %d" line
  let s := s.scan line []
  if scanned.returned = 1 then
    { s with config := { s.config with maxLeaseTime := intOf scanned 0 } }
  else
    s

/-- The only branch that asks for any value but zero, which one conversion or `EOF` will do for. -/
def readSubnet : ReadState :=
  let scanned := sscanf "subnet %15s netmask %15s" line
  let s := s.scan line (storesOf scanned [16, 6])
  if scanned.returned ≠ 0 then
    let subnet := frame.subnet s.lines scanned
    let netmask := frame.netmask s.lines scanned
    { s with
      config := { s.config with subnet := ntohl (inetAddr subnet), netmask := ntohl (inetAddr netmask) }
      unassigned := s.unassigned || (tokenOf scanned 0).isNone || (tokenOf scanned 1).isNone }
  else
    s

/-- The format says `options` where the line says `option`. -/
def readRouters : ReadState :=
  let scanned := sscanf "options routers %15s" line
  let s := s.scan line (storesOf scanned [16])
  if scanned.returned = 1 then
    let router := (tokenOf scanned 0).getD []
    { s with config := { s.config with router := ntohl (inetAddr router) } }
  else
    s

def readDomainNameServers : ReadState :=
  let scanned := sscanf "option domain-name-servers %15s, %15s" line
  let s := s.scan line (storesOf scanned [16, 16])
  if scanned.returned = 2 then
    let dns1 := (tokenOf scanned 0).getD []
    let dns2 := (tokenOf scanned 1).getD []
    { s with config := { s.config with dns := #v[ntohl (inetAddr dns1), ntohl (inetAddr dns2)] } }
  else
    s

/-- `strncmp(line, keyword, strlen(keyword)) == 0`. -/
def startsWith (keyword : String) : Bool := keyword.toList.isPrefixOf line

/-- The keywords in the order of the source. -/
def readDirective : ReadState :=
  if startsWith line "range" then readRange line s
  else if startsWith line "default-lease-time" then readDefaultLeaseTime line s
  else if startsWith line "max-lease-time" then readMaxLeaseTime line s
  else if startsWith line "subnet" then readSubnet frame line s
  else if startsWith line "option routers" then readRouters line s
  else if startsWith line "option domain-name-servers" then readDomainNameServers line s
  else s

end Directives

section Directives
variable {frame : StackFrame} {line token other : List Char} {s : ReadState} {n : Nat}

theorem readRange_two (scanned : sscanf "range %15s %15s" line = ⟨[.string token, .string other], false⟩) :
    readRange line s =
      { s with
        config := { s.config with
          ipPoolStart := ntohl (inetAddr token)
          ipPoolEnd := ntohl (inetAddr other) }
        pool := {
          ipFirst := ntohl (inetAddr token)
          ipLast := ntohl (inetAddr other)
          ipCurrent := ntohl (inetAddr token) }
        lines := s.lines ++ [line]
        stores := s.stores ++ [⟨token, 16⟩, ⟨other, 16⟩] } := by
  rw [readRange, scanned]
  rfl

theorem readDefaultLeaseTime_one (scanned : sscanf "default-lease-time %d" line = ⟨[.decimal n], false⟩) :
    readDefaultLeaseTime line s =
      { s with
        config := { s.config with defaultLeaseTime := BitVec.ofNat 32 n }
        lines := s.lines ++ [line] } := by
  rw [readDefaultLeaseTime, scanned]
  simp [ReadState.scan, Scanned.returned, intOf]

theorem readMaxLeaseTime_one (scanned : sscanf "max-lease-time %d" line = ⟨[.decimal n], false⟩) :
    readMaxLeaseTime line s =
      { s with
        config := { s.config with maxLeaseTime := BitVec.ofNat 32 n }
        lines := s.lines ++ [line] } := by
  rw [readMaxLeaseTime, scanned]
  simp [ReadState.scan, Scanned.returned, intOf]

theorem readSubnet_two (scanned : sscanf "subnet %15s netmask %15s" line = ⟨[.string token, .string other], false⟩) :
    readSubnet frame line s =
      { s with
        config := { s.config with
          subnet := ntohl (inetAddr (if other.length < 6 then token else frame.overrun token other))
          netmask := ntohl (inetAddr other) }
        lines := s.lines ++ [line]
        stores := s.stores ++ [⟨token, 16⟩, ⟨other, 6⟩] } := by
  rw [readSubnet, scanned]
  simp [ReadState.scan, Scanned.returned, StackFrame.subnet, StackFrame.netmask, tokenOf, storesOf]

theorem readRouters_none (scanned : sscanf "options routers %15s" line = ⟨[], false⟩) :
    readRouters line s = s.scan line [] := by
  rw [readRouters, scanned]
  rfl

theorem readDomainNameServers_two
    (scanned : sscanf "option domain-name-servers %15s, %15s" line = ⟨[.string token, .string other], false⟩) :
    readDomainNameServers line s =
      { s with
        config := { s.config with dns := #v[ntohl (inetAddr token), ntohl (inetAddr other)] }
        lines := s.lines ++ [line]
        stores := s.stores ++ [⟨token, 16⟩, ⟨other, 16⟩] } := by
  simp only [readDomainNameServers, scanned]
  rfl

/-- With one server found the two of the configuration stay. -/
theorem readDomainNameServers_one
    (scanned : sscanf "option domain-name-servers %15s, %15s" line = ⟨[.string token], false⟩) :
    readDomainNameServers line s = s.scan line [⟨token, 16⟩] := by
  simp only [readDomainNameServers, scanned]
  rfl

end Directives

/-- The line of a piece: up to its NUL, without the blanks in front. -/
def lineOf (buffer : List Char) : List Char := (cString buffer).dropWhile fun c => c == ' ' || c == '\t'

/-- The body of the loop: leading blanks are stepped over, empty lines and comments left alone. -/
def readLine (frame : StackFrame) (buffer : List Char) (s : ReadState) : ReadState :=
  let line := lineOf buffer
  if line = [] || line.head? = some '#' then s else readDirective frame line s

def keywords : List String :=
  ["range", "default-lease-time", "max-lease-time", "subnet", "option routers", "option domain-name-servers"]

/-- Whether one of the keywords stands behind the blanks. -/
def hasKeyword (buffer : List Char) : Bool := keywords.any (startsWith (lineOf buffer))

/-- The loop over the rest of the file. Every piece takes a character, so as many turns as there are
characters are enough. -/
def readLines (frame : StackFrame) : Nat → List Char → ReadState → ReadState
  | 0, _, s => s
  | fuel + 1, file, s =>
    match fgets 256 file with
    | none => s
    | some (buffer, rest) => readLines frame fuel rest (readLine frame buffer s)

/-- `read_config_dhcp` on the file's characters, if it can be opened, with the configuration and the
pool it is given. -/
def readConfigDhcp (frame : StackFrame) (file : Option (List Char)) (config : DhcpConfig) (pool : IpPoolInd) :
    Int × ReadState :=
  match file with
  | none => (-1, ⟨config, pool, [], [], false⟩)
  | some file => (0, readLines frame file.length file ⟨config, pool, [], [], false⟩)

section Lines
variable {frame : StackFrame} {line file : List Char} {lines : List (List Char)} {s : ReadState} {fuel fuel' : Nat}

/-- `fgets` takes at least one character. -/
theorem fgets_shorter {buffer rest : List Char} (taken : fgets 256 file = some (buffer, rest)) :
    rest.length < file.length := by
  have shrinks : ∀ n (file : List Char), (takeLine n file).2.length ≤ file.length := by
    intro n file
    induction n generalizing file with
    | zero => exact Nat.le_refl _
    | succ n ih =>
      cases file with
      | nil => exact Nat.le_refl _
      | cons c file =>
        rw [takeLine]
        split
        · exact Nat.le_succ _
        · exact Nat.le_succ_of_le (ih file)
  unfold fgets at taken
  split at taken
  · cases taken
  · rename_i nonempty
    obtain ⟨c, file, rfl⟩ := List.exists_cons_of_ne_nil nonempty
    have line : takeLine 255 (c :: file) = (buffer, rest) := Option.some.inj taken
    rw [takeLine] at line
    split at line
    · cases line
      exact Nat.lt_succ_self _
    · cases line
      exact Nat.lt_succ_of_le (shrinks 254 file)

/-- **More turns than characters change nothing**: the loop never runs out of them. -/
theorem readLines_enough (enough : file.length ≤ fuel) (enough' : file.length ≤ fuel') :
    readLines frame fuel file s = readLines frame fuel' file s := by
  induction fuel generalizing fuel' file s with
  | zero =>
    obtain rfl := List.eq_nil_of_length_eq_zero (Nat.le_zero.mp enough)
    cases fuel' <;> rfl
  | succ fuel ih =>
    cases fuel' with
    | zero =>
      obtain rfl := List.eq_nil_of_length_eq_zero (Nat.le_zero.mp enough')
      rfl
    | succ fuel' =>
      rw [readLines, readLines]
      cases taken : fgets 256 file with
      | none => rfl
      | some piece =>
        have shorter := fgets_shorter taken
        exact ih (by omega) (by omega)

/-- **A file of short lines is read line by line.** -/
theorem readLines_lines (short : ∀ line ∈ lines, '\n' ∉ line ∧ line.length < 255)
    (enough : (lines.flatMap (· ++ ['\n'])).length ≤ fuel) :
    readLines frame fuel (lines.flatMap (· ++ ['\n'])) s =
      lines.foldl (fun s line => readLine frame (line ++ ['\n']) s) s := by
  induction lines generalizing fuel s with
  | nil => cases fuel <;> rfl
  | cons line lines ih =>
    obtain ⟨⟨unbroken, fits⟩, later⟩ := List.forall_mem_cons.mp short
    rw [List.flatMap_cons, List.length_append, List.length_append, List.length_singleton] at enough
    obtain ⟨fuel, rfl⟩ : ∃ k, fuel = k + 1 := ⟨fuel - 1, by omega⟩
    have taken : fgets 256 ((line :: lines).flatMap (· ++ ['\n'])) =
        some (line ++ ['\n'], lines.flatMap (· ++ ['\n'])) := by
      rw [List.flatMap_cons, List.append_assoc, List.singleton_append, fgets, if_neg (by simp)]
      exact congrArg some (takeLine_line unbroken fits)
    rw [readLines, taken, List.foldl_cons]
    exact ih later (by omega)

/-- A line without a NUL is read as it is, but for the blanks in front. -/
theorem lineOf_eq (nul : '\x00' ∉ line) : lineOf line = line.dropWhile fun c => c == ' ' || c == '\t' := by
  have whole : cString line = line := by
    apply List.takeWhile_eq_self_iff.mpr
    intro c member
    rw [bne_iff_ne]
    rintro rfl
    exact nul member
  rw [lineOf, whole]

theorem readLine_eq {start : Char} {text : List Char} (trimmed : lineOf line = text) (first : text.head? = some start)
    (directive : start ≠ '#') : readLine frame line s = readDirective frame text s := by
  have nonempty : text ≠ [] := by
    rintro rfl
    cases first
  rw [readLine, trimmed, first]
  simp [nonempty, directive]

/-- A line without a keyword sets nothing. -/
theorem readLine_other (other : hasKeyword line = false) : readLine frame line s = s := by
  rw [hasKeyword, List.any_eq_false] at other
  unfold readLine
  generalize lineOf line = trimmed at other ⊢
  simp only [keywords, List.mem_cons, List.not_mem_nil, or_false, forall_eq_or_imp, forall_eq] at other
  obtain ⟨range, default, max, subnet, routers, servers⟩ := other
  simp only [readDirective, if_neg range, if_neg default, if_neg max, if_neg subnet, if_neg routers, if_neg servers,
    ite_self]

/-- Only the lines with a keyword count. -/
theorem foldl_readLine_keyword : lines.foldl (fun s line => readLine frame (line ++ ['\n']) s) s =
    (lines.filter fun line => hasKeyword (line ++ ['\n'])).foldl
      (fun s line => readLine frame (line ++ ['\n']) s) s := by
  induction lines generalizing s with
  | nil => rfl
  | cons line lines ih =>
    rw [List.foldl_cons, List.filter_cons]
    split
    · exact ih
    · rename_i other
      rw [readLine_other (Bool.eq_false_iff.mpr other)]
      exact ih

end Lines

end DhcpServer
