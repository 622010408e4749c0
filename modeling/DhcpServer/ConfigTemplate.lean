import DhcpServer.ConfigReader

/-!
# The generated configuration file (`config.sh`, `dhcp_config_file.txt`)

The template with the addresses and times of a network, and what the scans of `read_config_dhcp`
make of its lines. A `%15s` takes whatever follows a token up to the next blank, so a `;` or `,`
behind an address is left alone only when the address itself has fifteen characters.
-/

namespace DhcpServer
set_option autoImplicit false
open Lib

/-- What the template is filled in with. -/
structure NetworkSettings where
  first : BitVec 32
  last : BitVec 32
  subnet : BitVec 32
  netmask : BitVec 32
  router : BitVec 32
  dns1 : BitVec 32
  dns2 : BitVec 32
  broadcast : BitVec 32
  defaultLeaseTime : Nat
  maxLeaseTime : Nat
  defaultLeaseTime_lt : defaultLeaseTime < 2147483648
  maxLeaseTime_lt : maxLeaseTime < 2147483648

/-- The lines of the file. In `dhcp_config_file.txt` a blank stands in front of the `;` behind the
subnet mask; `config.sh` does not write it. -/
def templateLines (spaced : Bool) (v : NetworkSettings) : List (List Char) :=
  [ "# Configuratie server DHCP".toList,
    [],
    "#Optiuni generale".toList,
    "option domain-name \"localdomain\";".toList,
    "option domain-name-servers ".toList ++ quad v.dns1 ++ ", ".toList ++ quad v.dns2 ++ ";".toList,
    [],
    "#Timpi de lease".toList,
    "default-lease-time ".toList ++ Nat.toDigits 10 v.defaultLeaseTime ++ ";".toList,
    "max-lease-time ".toList ++ Nat.toDigits 10 v.maxLeaseTime ++ ";".toList,
    [],
    "# ddns-update-style none;".toList,
    [],
    "# Subnet si setari IP".toList,
    "subnet ".toList ++ quad v.subnet ++ " netmask ".toList ++ quad v.netmask ++ " \x7b".toList,
    "    range ".toList ++ quad v.first ++ " ".toList ++ quad v.last ++ ";".toList,
    "    option routers ".toList ++ quad v.router ++ ";".toList,
    "    option subnet-mask ".toList ++ quad v.netmask ++ (if spaced then " ;".toList else ";".toList),
    "    option broadcast-address ".toList ++ quad v.broadcast ++ ";".toList,
    "\x7d".toList,
    [],
    "authoritative;".toList,
    [],
    "# Binding PENDING time".toList,
    "#pending-time 30;".toList,
    [],
    "# Interfata de retea pentru serverul DHCP".toList,
    "INTERFACES=\"enp0s3\";".toList ]

def templateText (spaced : Bool) (v : NetworkSettings) : List Char :=
  (templateLines spaced v).flatMap (· ++ ['\n'])

/-- The values in `dhcp_config_file.txt`. -/
def lanSettings : NetworkSettings where
  first := 0xC0A8010F#32
  last := 0xC0A80114#32
  subnet := 0xC0A80100#32
  netmask := 0xFFFFFF00#32
  router := 0xC0A80101#32
  dns1 := 0x08080808#32
  dns2 := 0x08080404#32
  broadcast := 0xC0A801FF#32
  defaultLeaseTime := 600
  maxLeaseTime := 7200
  defaultLeaseTime_lt := by decide
  maxLeaseTime_lt := by decide

-- The range, as it stands in the file.
example : (templateLines true lanSettings)[14]? = some "    range 192.168.1.15 192.168.1.20;".toList := by decide

/-! ## Addresses in front of a mark -/

/-- The token `%15s` makes of an address with a mark behind it. -/
def swallowed (a : BitVec 32) (mark : Char) : List Char :=
  if (quad a).length = 15 then quad a else quad a ++ [mark]

/-- The address that is made of it. -/
def readBehind (a : BitVec 32) : BitVec 32 := if (quad a).length = 15 then a else 0xFFFFFFFF#32

section Tokens
variable {a : BitVec 32} {mark blank : Char} {rest : List Char}

theorem quad_solid (a : BitVec 32) : ∀ c ∈ quad a, isSpace c = false := by
  intro c member
  rcases quad_chars a c member with digit | rfl
  · exact isSpace_of_isDigit digit
  · rfl

/-- In front of a blank `%15s` takes the address. -/
theorem takes_quad (space : isSpace blank = true) : Takes 15 (quad a) (blank :: rest) where
  nonempty := quad_ne_nil a
  solid := quad_solid a
  ends := by
    refine Or.inr ⟨(quad_length a).2, ?_⟩
    rintro c ⟨⟩
    exact space

theorem takes_full (full : (quad a).length = 15) : Takes 15 (quad a) rest where
  nonempty := quad_ne_nil a
  solid := quad_solid a
  ends := Or.inl full

/-- A mark in front of a blank is taken along by a shorter address. -/
theorem takes_mark (short : (quad a).length ≠ 15) (solid : isSpace mark = false) (space : isSpace blank = true) :
    Takes 15 (quad a ++ [mark]) (blank :: rest) where
  nonempty := by simp
  solid := by
    intro c member
    rcases List.mem_append.mp member with inside | last
    · exact quad_solid a c inside
    · rw [List.mem_singleton.mp last]
      exact solid
  ends := by
    have bound := (quad_length a).2
    refine Or.inr ⟨?_, ?_⟩
    · rw [List.length_append, List.length_singleton]
      omega
    · rintro c ⟨⟩
      exact space

/-- A field that ends a line. -/
theorem scanFormat_last_field {format : List Directive} (solid : isSpace mark = false) :
    ∃ rest, scanFormat (.blank :: .string 15 :: format) (' ' :: (quad a ++ [mark, '\n'])) =
      (scanFormat format rest).cons (.string (swallowed a mark)) := by
  unfold swallowed
  split
  · rename_i full
    exact ⟨[mark, '\n'], scanFormat_field (takes_full full)⟩
  · rename_i short
    refine ⟨['\n'], ?_⟩
    rw [← scanFormat_field (takes_mark short solid (by decide : isSpace '\n' = true)), List.append_assoc]
    rfl

theorem inetAddr_swallowed (semicolon : mark = ';' ∨ mark = ',') :
    ntohl (inetAddr (swallowed a mark)) = readBehind a := by
  unfold swallowed readBehind
  split
  · exact inetAddr_quad a
  · exact inetAddr_quad_mark semicolon

end Tokens

/-! ## The lines that set something -/

section Lines
variable {a b : BitVec 32} {n : Nat}

theorem sscanf_range : sscanf "range %15s %15s"
    ("range ".toList ++ quad a ++ " ".toList ++ quad b ++ ";".toList ++ ['\n']) =
      ⟨[.string (quad a), .string (swallowed b ';')], false⟩ := by
  have text : "range ".toList ++ quad a ++ " ".toList ++ quad b ++ ";".toList ++ ['\n'] =
      "range".toList ++ (' ' :: (quad a ++ (' ' :: (quad b ++ [';', '\n'])))) := by simp
  have format : directives none "range %15s %15s".toList =
      "range".toList.map .literal ++ [.blank, .string 15, .blank, .string 15] := rfl
  obtain ⟨rest, last⟩ := @scanFormat_last_field b ';' [] rfl
  rw [sscanf, format, text, scanFormat_literals, scanFormat_field (takes_quad rfl), last]
  rfl

theorem sscanf_subnet : sscanf "subnet %15s netmask %15s"
    ("subnet ".toList ++ quad a ++ " netmask ".toList ++ quad b ++ " \x7b".toList ++ ['\n']) =
      ⟨[.string (quad a), .string (quad b)], false⟩ := by
  have text : "subnet ".toList ++ quad a ++ " netmask ".toList ++ quad b ++ " \x7b".toList ++ ['\n'] =
      "subnet".toList ++ (' ' :: (quad a ++ (' ' :: ("netmask".toList ++ (' ' :: (quad b ++
        [' ', '\x7b', '\n'])))))) := by simp
  have format : directives none "subnet %15s netmask %15s".toList =
      "subnet".toList.map .literal ++ (.blank :: .string 15 :: .blank ::
        ("netmask".toList.map .literal ++ [.blank, .string 15])) := rfl
  have netmask : ∀ format cs, scanFormat (.blank :: ("netmask".toList.map .literal ++ format))
      (' ' :: ("netmask".toList ++ cs)) = scanFormat format cs :=
    fun _ _ => @scanFormat_word _ _ 'n' "etmask".toList rfl
  rw [sscanf, format, text, scanFormat_literals, scanFormat_field (takes_quad rfl), netmask,
    scanFormat_field (takes_quad rfl)]
  rfl

/-- A lease time behind its keyword. -/
theorem scanFormat_leaseTime (keyword : List Char) (bound : n < 2147483648) :
    scanFormat (keyword.map .literal ++ [.blank, .decimal])
      (keyword ++ (' ' :: (Nat.toDigits 10 n ++ [';', '\n']))) = ⟨[.decimal n], false⟩ := by
  rw [scanFormat_literals, scanFormat_decimal_field (by omega) (by rintro c ⟨⟩; rfl)]
  rfl

theorem sscanf_default (bound : n < 2147483648) : sscanf "default-lease-time %d"
    ("default-lease-time ".toList ++ Nat.toDigits 10 n ++ ";".toList ++ ['\n']) = ⟨[.decimal n], false⟩ := by
  have text : "default-lease-time ".toList ++ Nat.toDigits 10 n ++ ";".toList ++ ['\n'] =
      "default-lease-time".toList ++ (' ' :: (Nat.toDigits 10 n ++ [';', '\n'])) := by simp
  have format : directives none "default-lease-time %d".toList =
      "default-lease-time".toList.map .literal ++ [.blank, .decimal] := rfl
  rw [sscanf, format, text, scanFormat_leaseTime _ bound]

theorem sscanf_max (bound : n < 2147483648) : sscanf "max-lease-time %d"
    ("max-lease-time ".toList ++ Nat.toDigits 10 n ++ ";".toList ++ ['\n']) = ⟨[.decimal n], false⟩ := by
  have text : "max-lease-time ".toList ++ Nat.toDigits 10 n ++ ";".toList ++ ['\n'] =
      "max-lease-time".toList ++ (' ' :: (Nat.toDigits 10 n ++ [';', '\n'])) := by simp
  have format : directives none "max-lease-time %d".toList =
      "max-lease-time".toList.map .literal ++ [.blank, .decimal] := rfl
  rw [sscanf, format, text, scanFormat_leaseTime _ bound]

/-- The comma the format asks for is there only behind an address of fifteen characters. -/
theorem sscanf_dns : sscanf "option domain-name-servers %15s, %15s"
    ("option domain-name-servers ".toList ++ quad a ++ ", ".toList ++ quad b ++ ";".toList ++ ['\n']) =
      if (quad a).length = 15 then ⟨[.string (quad a), .string (swallowed b ';')], false⟩
      else ⟨[.string (quad a ++ [','])], false⟩ := by
  have text : "option domain-name-servers ".toList ++ quad a ++ ", ".toList ++ quad b ++ ";".toList ++ ['\n'] =
      "option".toList ++ (' ' :: ("domain-name-servers".toList ++ (' ' :: (quad a ++
        (',' :: ' ' :: (quad b ++ [';', '\n'])))))) := by simp
  have format : directives none "option domain-name-servers %15s, %15s".toList =
      "option".toList.map .literal ++ (.blank :: ("domain-name-servers".toList.map .literal ++
        [.blank, .string 15, .literal ',', .blank, .string 15])) := rfl
  have servers : ∀ format cs, scanFormat (.blank :: ("domain-name-servers".toList.map .literal ++ format))
      (' ' :: ("domain-name-servers".toList ++ cs)) = scanFormat format cs :=
    fun _ _ => @scanFormat_word _ _ 'd' "omain-name-servers".toList rfl
  rw [sscanf, format, text, scanFormat_literals, servers]
  split
  · rename_i full
    obtain ⟨rest, last⟩ := @scanFormat_last_field b ';' [] rfl
    rw [scanFormat_field (takes_full full), scanFormat, if_pos rfl, last]
    rfl
  · rename_i short
    have behind : quad a ++ ',' :: ' ' :: (quad b ++ [';', '\n']) =
        (quad a ++ [',']) ++ ' ' :: (quad b ++ [';', '\n']) := by rw [List.append_assoc]; rfl
    rw [behind, scanFormat_field (takes_mark short rfl rfl)]
    rfl

end Lines

/-! ## The lines are short -/

/-- At most `n` characters, none of them a newline or a NUL. -/
structure Short (n : Nat) (cs : List Char) : Prop where
  unbroken : '\n' ∉ cs
  nul : '\x00' ∉ cs
  length_le : cs.length ≤ n

section Short
variable {m n : Nat} {cs ds : List Char}

theorem Short.append (left : Short m cs) (right : Short n ds) : Short (m + n) (cs ++ ds) where
  unbroken := by simp [left.unbroken, right.unbroken]
  nul := by simp [left.nul, right.nul]
  length_le := by
    rw [List.length_append]
    exact Nat.add_le_add left.length_le right.length_le

theorem Short.mono (short : Short m cs) (bound : m ≤ n) : Short n cs :=
  ⟨short.unbroken, short.nul, Nat.le_trans short.length_le bound⟩

theorem short_quad (a : BitVec 32) : Short 15 (quad a) where
  unbroken := fun member => by rcases quad_chars a _ member with digit | same <;> contradiction
  nul := fun member => by rcases quad_chars a _ member with digit | same <;> contradiction
  length_le := (quad_length a).2

theorem short_toDigits (bound : n < 2147483648) : Short 15 (Nat.toDigits 10 n) where
  unbroken := fun member => by cases digits_toDigits n _ member
  nul := fun member => by cases digits_toDigits n _ member
  length_le := (Nat.length_toDigits_le_iff (by decide) (by decide)).mpr (by omega)

/-- Text is checked by evaluation. -/
theorem short_text (plain : (cs.all (fun c => c != '\n' && c != '\x00') && decide (cs.length ≤ n)) = true) :
    Short n cs := by
  obtain ⟨plain, length⟩ := Bool.and_eq_true_iff.mp plain
  refine ⟨fun member => ?_, fun member => ?_, of_decide_eq_true length⟩
  all_goals cases List.all_eq_true.mp plain _ member

end Short

theorem template_short (spaced : Bool) (v : NetworkSettings) : ∀ line ∈ templateLines spaced v, Short 110 line := by
  have one {keyword field final : List Char} (k : Short 40 keyword) (x : Short 15 field) (f : Short 2 final) :
      Short 110 (keyword ++ field ++ final) := ((k.append x).append f).mono (by decide : 40 + 15 + 2 ≤ 110)
  have two {keyword field middle other final : List Char} (k : Short 40 keyword) (x : Short 15 field)
      (m : Short 20 middle) (y : Short 15 other) (f : Short 2 final) :
      Short 110 (keyword ++ field ++ middle ++ other ++ final) :=
    ((((k.append x).append m).append y).append f).mono (by decide : 40 + 15 + 20 + 15 + 2 ≤ 110)
  have default := short_toDigits v.defaultLeaseTime_lt
  have max := short_toDigits v.maxLeaseTime_lt
  have mark : Short 2 (if spaced then " ;".toList else ";".toList) := by cases spaced <;> exact short_text rfl
  simp only [templateLines, List.forall_mem_cons]
  and_intros
  all_goals first
    | exact short_text rfl
    | exact two (short_text rfl) (short_quad _) (short_text rfl) (short_quad _) (short_text rfl)
    | exact one (short_text rfl) (short_quad _) (short_text rfl)
    | exact one (short_text rfl) (short_quad _) mark
    | exact one (short_text rfl) default (short_text rfl)
    | exact one (short_text rfl) max (short_text rfl)
    | exact List.forall_mem_nil _

/-- The lines with a keyword. -/
def templateDirectives (v : NetworkSettings) : List (List Char) :=
  [ "option domain-name-servers ".toList ++ quad v.dns1 ++ ", ".toList ++ quad v.dns2 ++ ";".toList,
    "default-lease-time ".toList ++ Nat.toDigits 10 v.defaultLeaseTime ++ ";".toList,
    "max-lease-time ".toList ++ Nat.toDigits 10 v.maxLeaseTime ++ ";".toList,
    "subnet ".toList ++ quad v.subnet ++ " netmask ".toList ++ quad v.netmask ++ " \x7b".toList,
    "    range ".toList ++ quad v.first ++ " ".toList ++ quad v.last ++ ";".toList,
    "    option routers ".toList ++ quad v.router ++ ";".toList ]

theorem template_keyword (spaced : Bool) (v : NetworkSettings) :
    (templateLines spaced v).filter (fun line => hasKeyword (line ++ ['\n'])) = templateDirectives v := by
  rfl

end DhcpServer
