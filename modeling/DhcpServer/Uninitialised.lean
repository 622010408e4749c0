import DhcpServer.Configured
import DhcpServer.Traffic

/-!
# What shows of uninitialised memory

`main` has the configuration file read into structures it has not initialised. What they held shows in the
traffic where a reply is made of a field that no line of the file sets: always the router, as soon as
there is an address to offer, and the lease time and the first DNS server where their directives are missing.
-/

namespace DhcpServer
set_option autoImplicit false
open Lib

/-- The server `main` starts with the file, in memory that held these structures. -/
def boot (frame : StackFrame) (file : List Char) (config : DhcpConfig) (pool : IpPoolInd) : Server :=
  .fresh (readConfigDhcp frame (some file) config pool).2.pool (readConfigDhcp frame (some file) config pool).2.config

/-- Some line of the file carries out the directive. -/
def Carries (frame : StackFrame) (file : List Char) (k : SettingKind) : Prop := ∃ x ∈ settingsOf frame file, x.kind = k

section Fields
variable {frame : StackFrame} {file : List Char} {config config' : DhcpConfig} {pool pool' : IpPoolInd}
  {first last : BitVec 32}

/-- A field that one kind of directive sets shows what it held when the file carries out none of them. -/
theorem read_field_eq_iff {α : Type} {field : Settings → α} {k : SettingKind}
    (keeps : ∀ x, x.kind ≠ k → ∀ v, field (Setting.apply x v) = field v)
    (sets : ∀ x, x.kind = k → ∃ a, ∀ v, field (Setting.apply x v) = a) :
    field (readConfigDhcp frame (some file) config pool).2.settings =
        field (readConfigDhcp frame (some file) config' pool').2.settings ↔
      Carries frame file k ∨ field (config, pool) = field (config', pool') := by
  rw [readConfigDhcp_settings, readConfigDhcp_settings]
  by_cases carried : Carries frame file k
  · obtain ⟨x, latest, kind⟩ := exists_latest carried
    obtain ⟨a, set⟩ := sets x kind
    have force : ∀ v, x.apply (applyAll Setting.apply v (settingsOf frame file)) = _ :=
      fun v => latest.inForce setting_overwriting (v := v)
    refine iff_of_true ?_ (Or.inl carried)
    rw [← force, ← force (config', pool'), set, set]
  · have kept : ∀ v, field (applyAll Setting.apply v (settingsOf frame file)) = field v := by
      intro v
      exact applyAll_keeps fun x member => keeps x fun kind => carried ⟨x, member, kind⟩
    rw [kept, kept, or_iff_right carried]

theorem read_dns_eq_iff : (readConfigDhcp frame (some file) config pool).2.config.dns.get 0 =
      (readConfigDhcp frame (some file) config' pool').2.config.dns.get 0 ↔
    Carries frame file .domainNameServers ∨ config.dns.get 0 = config'.dns.get 0 := by
  refine @read_field_eq_iff frame file config config' pool pool' _ (fun v => v.1.dns.get 0) _ ?_ ?_
  · intro x other v
    cases x <;> first | rfl | exact (other rfl).elim
  · intro x same
    cases x <;> first | exact ⟨_, fun _ => rfl⟩ | cases same

theorem read_maxLeaseTime_eq_iff : (readConfigDhcp frame (some file) config pool).2.config.maxLeaseTime =
      (readConfigDhcp frame (some file) config' pool').2.config.maxLeaseTime ↔
    Carries frame file .maxLeaseTime ∨ config.maxLeaseTime = config'.maxLeaseTime := by
  refine @read_field_eq_iff frame file config config' pool pool' _ (fun v => v.1.maxLeaseTime) _ ?_ ?_
  · intro x other v
    cases x <;> first | rfl | exact (other rfl).elim
  · intro x same
    cases x <;> first | exact ⟨_, fun _ => rfl⟩ | cases same

theorem read_router : (readConfigDhcp frame (some file) config pool).2.config.router = config.router := by
  have settings := readConfigDhcp_settings frame file config pool
  have kept := @applyAll_keeps _ _ Setting.apply (config, pool) (settingsOf frame file) _ (fun v => v.1.router)
    fun x _ v => x.apply_router v
  rwa [← settings] at kept

/-- The range of the file is the server's. -/
theorem read_pool (range : Latest Setting.kind (.range first last) (settingsOf frame file)) :
    (readConfigDhcp frame (some file) config pool).2.pool = .ofRange first last := by
  have force : InForce Setting.apply (.range first last) (readConfigDhcp frame (some file) config pool).2.settings := by
    rw [readConfigDhcp_settings]
    exact range.inForce setting_overwriting
  exact (congrArg Prod.snd force).symm

theorem boot_eq (range : Latest Setting.kind (.range first last) (settingsOf frame file)) :
    boot frame file config pool =
      .fresh (.ofRange first last) (readConfigDhcp frame (some file) config pool).2.config := by
  rw [boot, read_pool range]

end Fields

/-- **What shows of the memory**: with a range in the file, clients can tell what the structures held exactly
where the DNS server or the lease time is missing from the file, and by the router in any case; by the latter
two only if there is an address to offer. -/
theorem uninitialised_shows_iff {frame : StackFrame} {file : List Char} {first last : BitVec 32}
    (range : Latest Setting.kind (.range first last) (settingsOf frame file)) (config config' : DhcpConfig)
    (pool pool' : IpPoolInd) :
    Indistinguishable serve Action.wire (boot frame file config pool) (boot frame file config' pool') ↔
      (Carries frame file .domainNameServers ∨ config.dns.get 0 = config'.dns.get 0) ∧
        (first < last → (Carries frame file .maxLeaseTime ∨ config.maxLeaseTime = config'.maxLeaseTime) ∧
          config.router = config'.router) := by
  rw [boot_eq range, boot_eq range, ← @read_dns_eq_iff frame file config config' pool pool',
    ← @read_maxLeaseTime_eq_iff frame file config config' pool pool']
  constructor
  · intro same
    refine ⟨dns_told same, fun room => ?_⟩
    obtain ⟨-, -, maxLeaseTime, router⟩ := offers_told same room
    rw [read_router, read_router] at router
    exact ⟨maxLeaseTime, router⟩
  · rintro ⟨dns, others⟩
    by_cases room : first < last
    · obtain ⟨maxLeaseTime, router⟩ := others room
      have router' : (readConfigDhcp frame (some file) config pool).2.config.router =
          (readConfigDhcp frame (some file) config' pool').2.config.router := by
        rw [read_router, read_router, router]
      exact twins_bisimulation.indistinguishable (.alike ⟨dns, maxLeaseTime, router'⟩)
    · have spent := BitVec.not_lt.mp room
      exact twins_bisimulation.indistinguishable (.spent spent spent dns)

/-- A file with a range and nothing else. -/
def rangeFile : List Char := "range 10.0.0.1 10.0.0.9".toList ++ ['\n']

/-- Its clients see the router the memory held. -/
theorem uninitialised_shows_router : ¬ Indistinguishable serve Action.wire
    (boot adjacentFrame rangeFile lanConfig lanPool)
    (boot adjacentFrame rangeFile { lanConfig with router := 0#32 } lanPool) := by
  have settings : settingsOf adjacentFrame rangeFile = [.range 0x0A000001#32 0x0A000009#32] := by decide +kernel
  have range : Latest Setting.kind (.range 0x0A000001#32 0x0A000009#32) (settingsOf adjacentFrame rangeFile) := by
    rw [settings]
    exact ⟨[], [], rfl, List.forall_mem_nil _⟩
  rw [uninitialised_shows_iff range]
  rintro ⟨-, others⟩
  exact absurd (others (by decide)).2 (by decide)

end DhcpServer
