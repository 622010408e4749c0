import DhcpServer.ConfigTemplate

/-!
# Reading the generated file back

Every line with a keyword is read as its directive; together they give the state the reader leaves
behind, which is compared with the values the file was filled in with.
-/

namespace DhcpServer
set_option autoImplicit false
open Lib

/-! ## What the lines set -/

section Sets
variable {frame : StackFrame} {s : ReadState} {a b : BitVec 32} {n : Nat}

theorem readLine_range
    (nul : '\x00' ∉ "    range ".toList ++ quad a ++ " ".toList ++ quad b ++ ";".toList ++ ['\n']) :
    readLine frame ("    range ".toList ++ quad a ++ " ".toList ++ quad b ++ ";".toList ++ ['\n']) s =
      { s with
        config := { s.config with ipPoolStart := a, ipPoolEnd := readBehind b }
        pool := { ipFirst := a, ipLast := readBehind b, ipCurrent := a }
        lines := s.lines ++ [lineOf ("    range ".toList ++ quad a ++ " ".toList ++ quad b ++ ";".toList ++ ['\n'])]
        stores := s.stores ++ [⟨quad a, 16⟩, ⟨swallowed b ';', 16⟩] } := by
  have directive : readDirective frame
      ("range ".toList ++ quad a ++ " ".toList ++ quad b ++ ";".toList ++ ['\n']) s =
        readRange ("range ".toList ++ quad a ++ " ".toList ++ quad b ++ ";".toList ++ ['\n']) s := rfl
  rw [readLine_eq (lineOf_eq nul) rfl (by decide), lineOf_eq nul]
  apply directive.trans
  rw [readRange_two sscanf_range, inetAddr_quad, inetAddr_swallowed (Or.inl rfl)]
  rfl

theorem readLine_defaultLeaseTime (bound : n < 2147483648)
    (nul : '\x00' ∉ "default-lease-time ".toList ++ Nat.toDigits 10 n ++ ";".toList ++ ['\n']) :
    readLine frame ("default-lease-time ".toList ++ Nat.toDigits 10 n ++ ";".toList ++ ['\n']) s =
      { s with
        config := { s.config with defaultLeaseTime := BitVec.ofNat 32 n }
        lines := s.lines ++ [lineOf ("default-lease-time ".toList ++ Nat.toDigits 10 n ++ ";".toList ++ ['\n'])] } := by
  have directive : readDirective frame ("default-lease-time ".toList ++ Nat.toDigits 10 n ++ ";".toList ++ ['\n']) s =
      readDefaultLeaseTime ("default-lease-time ".toList ++ Nat.toDigits 10 n ++ ";".toList ++ ['\n']) s := rfl
  rw [readLine_eq (lineOf_eq nul) rfl (by decide), lineOf_eq nul]
  apply directive.trans
  rw [readDefaultLeaseTime_one (sscanf_default bound)]
  rfl

theorem readLine_maxLeaseTime (bound : n < 2147483648)
    (nul : '\x00' ∉ "max-lease-time ".toList ++ Nat.toDigits 10 n ++ ";".toList ++ ['\n']) :
    readLine frame ("max-lease-time ".toList ++ Nat.toDigits 10 n ++ ";".toList ++ ['\n']) s =
      { s with
        config := { s.config with maxLeaseTime := BitVec.ofNat 32 n }
        lines := s.lines ++ [lineOf ("max-lease-time ".toList ++ Nat.toDigits 10 n ++ ";".toList ++ ['\n'])] } := by
  have directive : readDirective frame ("max-lease-time ".toList ++ Nat.toDigits 10 n ++ ";".toList ++ ['\n']) s =
      readMaxLeaseTime ("max-lease-time ".toList ++ Nat.toDigits 10 n ++ ";".toList ++ ['\n']) s := rfl
  rw [readLine_eq (lineOf_eq nul) rfl (by decide), lineOf_eq nul]
  apply directive.trans
  rw [readMaxLeaseTime_one (sscanf_max bound)]
  rfl

theorem readLine_subnet
    (nul : '\x00' ∉ "subnet ".toList ++ quad a ++ " netmask ".toList ++ quad b ++ " \x7b".toList ++ ['\n']) :
    readLine frame ("subnet ".toList ++ quad a ++ " netmask ".toList ++ quad b ++ " \x7b".toList ++ ['\n']) s =
      { s with
        config := { s.config with subnet := ntohl (inetAddr (frame.overrun (quad a) (quad b))), netmask := b }
        lines := s.lines ++
          [lineOf ("subnet ".toList ++ quad a ++ " netmask ".toList ++ quad b ++ " \x7b".toList ++ ['\n'])]
        stores := s.stores ++ [⟨quad a, 16⟩, ⟨quad b, 6⟩] } := by
  have directive : readDirective frame
      ("subnet ".toList ++ quad a ++ " netmask ".toList ++ quad b ++ " \x7b".toList ++ ['\n']) s =
        readSubnet frame
          ("subnet ".toList ++ quad a ++ " netmask ".toList ++ quad b ++ " \x7b".toList ++ ['\n']) s := rfl
  rw [readLine_eq (lineOf_eq nul) rfl (by decide), lineOf_eq nul]
  apply directive.trans
  -- Of the subnet mask seven characters and more are stored to six.
  have overrun : ¬ (quad b).length < 6 := Nat.not_lt.mpr (Nat.le_of_succ_le (quad_length b).1)
  rw [readSubnet_two sscanf_subnet, if_neg overrun, inetAddr_quad]
  rfl

/-- The router is never read. -/
theorem readLine_routers (nul : '\x00' ∉ "    option routers ".toList ++ quad a ++ ";".toList ++ ['\n']) :
    readLine frame ("    option routers ".toList ++ quad a ++ ";".toList ++ ['\n']) s =
      s.scan (lineOf ("    option routers ".toList ++ quad a ++ ";".toList ++ ['\n'])) [] := by
  have directive : readDirective frame ("option routers ".toList ++ quad a ++ ";".toList ++ ['\n']) s =
      readRouters ("option routers ".toList ++ quad a ++ ";".toList ++ ['\n']) s := rfl
  rw [readLine_eq (lineOf_eq nul) rfl (by decide), lineOf_eq nul]
  apply directive.trans
  exact readRouters_none rfl

theorem readLine_domainNameServers (nul : '\x00' ∉
      "option domain-name-servers ".toList ++ quad a ++ ", ".toList ++ quad b ++ ";".toList ++ ['\n']) :
    readLine frame
        ("option domain-name-servers ".toList ++ quad a ++ ", ".toList ++ quad b ++ ";".toList ++ ['\n']) s =
      { s with
        config := { s.config with dns := if (quad a).length = 15 then #v[a, readBehind b] else s.config.dns }
        lines := s.lines ++ [lineOf
          ("option domain-name-servers ".toList ++ quad a ++ ", ".toList ++ quad b ++ ";".toList ++ ['\n'])]
        stores := s.stores ++ (if (quad a).length = 15 then [⟨quad a, 16⟩, ⟨swallowed b ';', 16⟩]
          else [⟨quad a ++ [','], 16⟩]) } := by
  have directive : readDirective frame
      ("option domain-name-servers ".toList ++ quad a ++ ", ".toList ++ quad b ++ ";".toList ++ ['\n']) s =
        readDomainNameServers
          ("option domain-name-servers ".toList ++ quad a ++ ", ".toList ++ quad b ++ ";".toList ++ ['\n']) s := rfl
  rw [readLine_eq (lineOf_eq nul) rfl (by decide), lineOf_eq nul]
  apply directive.trans
  by_cases full : (quad a).length = 15
  · rw [if_pos full, if_pos full, readDomainNameServers_two (sscanf_dns.trans (if_pos full)), inetAddr_quad,
      inetAddr_swallowed (Or.inl rfl)]
    rfl
  · rw [if_neg full, if_neg full, readDomainNameServers_one (sscanf_dns.trans (if_neg full))]
    rfl

end Sets

/-! ## The file -/

/-- What the reader makes of the file. -/
def templateRead (frame : StackFrame) (v : NetworkSettings) (config : DhcpConfig) : ReadState where
  config := {
    ipPoolStart := v.first
    ipPoolEnd := readBehind v.last
    subnet := ntohl (inetAddr (frame.overrun (quad v.subnet) (quad v.netmask)))
    netmask := v.netmask
    router := config.router
    dns := if (quad v.dns1).length = 15 then #v[v.dns1, readBehind v.dns2] else config.dns
    defaultLeaseTime := BitVec.ofNat 32 v.defaultLeaseTime
    maxLeaseTime := BitVec.ofNat 32 v.maxLeaseTime }
  pool := { ipFirst := v.first, ipLast := readBehind v.last, ipCurrent := v.first }
  lines := (templateDirectives v).map fun line => lineOf (line ++ ['\n'])
  stores :=
    (if (quad v.dns1).length = 15 then [⟨quad v.dns1, 16⟩, ⟨swallowed v.dns2 ';', 16⟩]
      else [⟨quad v.dns1 ++ [','], 16⟩]) ++
    [⟨quad v.subnet, 16⟩, ⟨quad v.netmask, 6⟩, ⟨quad v.first, 16⟩, ⟨swallowed v.last ';', 16⟩]
  unassigned := false

section File
variable {frame : StackFrame} {spaced : Bool} {v : NetworkSettings} {config : DhcpConfig} {pool : IpPoolInd}

/-- **What a generated file sets**: whatever the configuration was, all but the router and, with a
short first name server, the name servers; the addresses at the end of a statement only when they
have fifteen characters; and the subnet to what its array holds behind the subnet mask. -/
theorem readConfigDhcp_template :
    readConfigDhcp frame (some (templateText spaced v)) config pool = (0, templateRead frame v config) := by
  have short := template_short spaced v
  have lines : ∀ line ∈ templateLines spaced v, '\n' ∉ line ∧ line.length < 255 := fun line member =>
    ⟨(short line member).unbroken, Nat.lt_of_le_of_lt (short line member).length_le (by decide)⟩
  -- A line with a keyword has no NUL, as every line.
  have nul : ∀ line ∈ (templateLines spaced v).filter (fun line => hasKeyword (line ++ ['\n'])),
      '\x00' ∉ line ++ ['\n'] := by
    intro line member last
    rcases List.mem_append.mp last with inside | newline
    · exact (short line (List.mem_filter.mp member).1).nul inside
    · cases List.mem_singleton.mp newline
  rw [readConfigDhcp, templateText, readLines_lines lines (Nat.le_refl _), foldl_readLine_keyword]
  rw [template_keyword] at nul ⊢
  simp only [templateDirectives, List.forall_mem_cons] at nul
  obtain ⟨servers, default, max, subnet, range, routers, -⟩ := nul
  simp only [templateDirectives, List.foldl_cons, List.foldl_nil]
  rw [readLine_domainNameServers servers, readLine_defaultLeaseTime v.defaultLeaseTime_lt default,
    readLine_maxLeaseTime v.maxLeaseTime_lt max, readLine_subnet subnet, readLine_range range,
    readLine_routers routers]
  simp [templateRead, templateDirectives, ReadState.scan]

end File

/-! ## Reading back -/

/-- The values the file was filled in with are the values the reader has set, the subnet aside. -/
structure ValuesRead (v : NetworkSettings) (result : Int × ReadState) : Prop where
  returned : result.1 = 0
  ipPoolStart : result.2.config.ipPoolStart = v.first
  ipFirst : result.2.pool.ipFirst = v.first
  ipCurrent : result.2.pool.ipCurrent = v.first
  ipPoolEnd : result.2.config.ipPoolEnd = v.last
  ipLast : result.2.pool.ipLast = v.last
  netmask : result.2.config.netmask = v.netmask
  router : result.2.config.router = v.router
  dns : result.2.config.dns = #v[v.dns1, v.dns2]
  defaultLeaseTime : result.2.config.defaultLeaseTime.toInt = v.defaultLeaseTime
  maxLeaseTime : result.2.config.maxLeaseTime.toInt = v.maxLeaseTime

/-- So is the subnet, and no token was stored past the end of its array. -/
structure ReadBack (v : NetworkSettings) (result : Int × ReadState) : Prop extends ValuesRead v result where
  subnet : result.2.config.subnet = v.subnet
  fits : ∀ store ∈ result.2.stores, store.fits

/-- When the values come back: the last address of the pool has fifteen characters, so has the
second name server behind a first one that has, and what the reader does not set was there. -/
def ValuesSurvive (v : NetworkSettings) (config : DhcpConfig) : Prop :=
  (quad v.last).length = 15 ∧ config.router = v.router ∧
    if (quad v.dns1).length = 15 then (quad v.dns2).length = 15 else config.dns = #v[v.dns1, v.dns2]

theorem readBehind_eq_iff {a : BitVec 32} : readBehind a = a ↔ (quad a).length = 15 := by
  constructor
  · intro same
    by_contra short
    rw [readBehind, if_neg short] at same
    rw [← same] at short
    exact short (by decide)
  · intro full
    exact if_pos full

theorem swallowed_length (a : BitVec 32) (mark : Char) : (swallowed a mark).length ≤ 15 := by
  have bound := (quad_length a).2
  unfold swallowed
  split
  · exact bound
  · rw [List.length_append, List.length_singleton]
    omega

theorem toInt_leaseTime {n : Nat} (bound : n < 2147483648) : (BitVec.ofNat 32 n).toInt = n := by
  rw [BitVec.toInt_ofNat']
  exact Int.bmod_eq_of_le (by omega) (by omega)

/-- Exactly when the values come back. -/
theorem valuesRead_iff {frame : StackFrame} {v : NetworkSettings} {config : DhcpConfig} :
    ValuesRead v (0, templateRead frame v config) ↔ ValuesSurvive v config := by
  have servers : (templateRead frame v config).config.dns = #v[v.dns1, v.dns2] ↔
      if (quad v.dns1).length = 15 then (quad v.dns2).length = 15 else config.dns = #v[v.dns1, v.dns2] := by
    rw [templateRead]
    split
    · rw [← readBehind_eq_iff]
      simp
    · exact Iff.rfl
  constructor
  · intro read
    exact ⟨readBehind_eq_iff.mp read.ipLast, read.router, servers.mp read.dns⟩
  · rintro ⟨last, router, dns⟩
    exact {
      returned := rfl
      ipPoolStart := rfl
      ipFirst := rfl
      ipCurrent := rfl
      ipPoolEnd := readBehind_eq_iff.mpr last
      ipLast := readBehind_eq_iff.mpr last
      netmask := rfl
      router := router
      dns := servers.mpr dns
      defaultLeaseTime := toInt_leaseTime v.defaultLeaseTime_lt
      maxLeaseTime := toInt_leaseTime v.maxLeaseTime_lt }

/-- The one token that does not fit its array is the subnet mask. -/
theorem templateRead_fits_iff {frame : StackFrame} {v : NetworkSettings} {config : DhcpConfig} {store : Store}
    (stored : store ∈ (templateRead frame v config).stores) : ¬ store.fits ↔ store = ⟨quad v.netmask, 6⟩ := by
  have mask : ¬ (⟨quad v.netmask, 6⟩ : Store).fits := by
    have long := (quad_length v.netmask).1
    exact Nat.not_lt.mpr (by omega : 6 ≤ (quad v.netmask).length)
  have fits {token : List Char} (short : token.length ≤ 15) : (⟨token, 16⟩ : Store).fits := Nat.lt_succ_of_le short
  have other {token : List Char} (short : token.length ≤ 15) :
      ¬ (⟨token, 16⟩ : Store).fits ↔ (⟨token, 16⟩ : Store) = ⟨quad v.netmask, 6⟩ := by
    constructor
    · intro overrun
      exact absurd (fits short) overrun
    · intro same
      cases (Store.mk.inj same).2
  have address (a : BitVec 32) := other (quad_length a).2
  have behind (a : BitVec 32) := other (swallowed_length a ';')
  have comma (split : (quad v.dns1).length ≠ 15) : (quad v.dns1 ++ [',']).length ≤ 15 := by
    have bound := (quad_length v.dns1).2
    rw [List.length_append, List.length_singleton]
    omega
  rw [templateRead] at stored
  simp only [List.mem_append, List.mem_cons, List.not_mem_nil, or_false] at stored
  rcases stored with servers | rfl | rfl | rfl | rfl
  · split at servers
    · simp only [List.mem_cons, List.not_mem_nil, or_false] at servers
      rcases servers with rfl | rfl
      · exact address _
      · exact behind _
    · rename_i short
      rw [List.mem_singleton.mp servers]
      exact other (comma short)
  · exact address _
  · exact ⟨fun _ => rfl, fun _ => mask⟩
  · exact address _
  · exact behind _

section ReadBack
variable {frame : StackFrame} {spaced : Bool} {v : NetworkSettings} {config : DhcpConfig} {pool : IpPoolInd}

/-- **A generated file is never read back**: the subnet mask overruns its array whatever it is, and runs into
the subnet. Even the other values come back only with addresses of fifteen characters at the end of their
statements, and the router only if it was there. -/
theorem generated_config_not_read_back :
    ¬ ReadBack v (readConfigDhcp frame (some (templateText spaced v)) config pool) ∧
      (ValuesRead v (readConfigDhcp frame (some (templateText spaced v)) config pool) ↔ ValuesSurvive v config) := by
  rw [readConfigDhcp_template]
  refine ⟨fun back => ?_, valuesRead_iff⟩
  have stored : (⟨quad v.netmask, 6⟩ : Store) ∈ (templateRead frame v config).stores := by
    rw [templateRead]
    simp
  exact (templateRead_fits_iff stored).mpr rfl (back.fits _ stored)

end ReadBack

/-- Memory of zeros. -/
def clearedConfig : DhcpConfig := ⟨0#32, 0#32, 0#32, 0#32, 0#32, #v[0#32, 0#32], 0#32, 0#32⟩

/-- `dhcp_config_file.txt` itself: the pool ends at 255.255.255.255, and neither the router nor the
name servers are set. -/
theorem dhcp_config_file_not_read_back : ∃ result,
    readConfigDhcp adjacentFrame (some (templateText true lanSettings)) clearedConfig ⟨0#32, 0#32, 0#32⟩ = (0, result) ∧
    result.pool.ipLast = 0xFFFFFFFF#32 ∧ result.config.router = 0#32 ∧ result.config.dns = #v[0#32, 0#32] ∧
    ¬ ReadBack lanSettings (0, result) := by
  have unread : ¬ ReadBack lanSettings (0, templateRead adjacentFrame lanSettings clearedConfig) := by
    intro back
    have last : ¬ (templateRead adjacentFrame lanSettings clearedConfig).pool.ipLast = lanSettings.last := by decide
    exact last back.ipLast
  exact ⟨_, readConfigDhcp_template, by decide, by decide, by decide, unread⟩

end DhcpServer
