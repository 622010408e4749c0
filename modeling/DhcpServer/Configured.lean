import DhcpServer.ConfigReadBack
import DhcpServer.ConfigSettings

/-!
# Success of the reader

`main` passes structures it has not initialised. Of what the handlers read later, a file assigns the
fields whose directive it has with all its arguments, and never the router; the value returned is 0 all
the same.
-/

namespace DhcpServer
set_option autoImplicit false
open Lib

/-- The file assigns a field: what the reader leaves in it does not depend on what it held. -/
def Assigned {α : Type} (frame : StackFrame) (file : Option (List Char)) (field : Settings → α) : Prop :=
  ∃ a, ∀ config pool, field (readConfigDhcp frame file config pool).2.settings = a

/-- What the message handlers read is assigned, and the cursor is in the range. -/
structure Configured (frame : StackFrame) (file : Option (List Char)) : Prop where
  ipFirst : Assigned frame file fun v => v.2.ipFirst
  ipLast : Assigned frame file fun v => v.2.ipLast
  ipCurrent : Assigned frame file fun v => v.2.ipCurrent
  maxLeaseTime : Assigned frame file fun v => v.1.maxLeaseTime
  router : Assigned frame file fun v => v.1.router
  dns : Assigned frame file fun v => v.1.dns.head
  ordered : ∀ config pool, (readConfigDhcp frame file config pool).2.pool.ipFirst ≤
      (readConfigDhcp frame file config pool).2.pool.ipCurrent ∧
    (readConfigDhcp frame file config pool).2.pool.ipCurrent ≤ (readConfigDhcp frame file config pool).2.pool.ipLast

def SuccessMeansConfigured (frame : StackFrame) (file : Option (List Char)) : Prop :=
  (∀ config pool, (readConfigDhcp frame file config pool).1 = 0) → Configured frame file

section Fields
variable {frame : StackFrame} {file : List Char}

/-- A field that every directive keeps is not assigned. -/
theorem not_assigned {α : Type} {field : Settings → α}
    (keeps : ∀ x ∈ settingsOf frame file, ∀ v, field (x.apply v) = field v) {v v' : Settings}
    (free : field v ≠ field v') : ¬ Assigned frame (some file) field := by
  rintro ⟨a, assigned⟩
  have left : ∀ w : Settings, field w = a := by
    rintro ⟨config, pool⟩
    rw [← assigned config pool, readConfigDhcp_settings, applyAll_keeps keeps]
  exact free ((left v).trans (left v').symm)

/-- A field that one kind of directive sets is assigned when the file has one that comes through. -/
theorem assigned_iff {α : Type} {field : Settings → α} {k : SettingKind}
    (keeps : ∀ x, x.kind ≠ k → ∀ v, field (Setting.apply x v) = field v)
    (sets : ∀ x, x.kind = k → ∃ a, ∀ v, field (Setting.apply x v) = a) {v v' : Settings}
    (free : field v ≠ field v') :
    Assigned frame (some file) field ↔ ∃ x ∈ settingsOf frame file, x.kind = k := by
  constructor
  · intro assigned
    by_contra absent
    refine not_assigned (fun x member => keeps x fun same => absent ⟨x, member, same⟩) free assigned
  · intro occurs
    obtain ⟨x, latest, kind⟩ := exists_latest occurs
    obtain ⟨a, set⟩ := sets x kind
    refine ⟨a, fun config pool => ?_⟩
    have force : x.apply _ = _ := latest.inForce setting_overwriting (v := (config, pool))
    rw [readConfigDhcp_settings, ← force, set]

theorem Setting.apply_router (x : Setting) (v : Settings) : (x.apply v).1.router = v.1.router := by
  cases x <;> rfl

/-- The memory `main` passes, with zeros and with ones. -/
def onesConfig : DhcpConfig :=
  ⟨-1#32, -1#32, -1#32, -1#32, -1#32, #v[-1#32, -1#32], -1#32, -1#32⟩

/-- **The router is never assigned.** -/
theorem router_not_assigned : ¬ Assigned frame (some file) fun v => v.1.router := by
  have free : (clearedConfig, IpPoolInd.ofRange 0#32 0#32).1.router ≠
      (onesConfig, IpPoolInd.ofRange 0#32 0#32).1.router := by decide
  exact not_assigned (fun x _ v => x.apply_router v) free

theorem pool_assigned_iff :
    Assigned frame (some file) Prod.snd ↔ ∃ x ∈ settingsOf frame file, x.kind = .range := by
  have free : (clearedConfig, IpPoolInd.ofRange 0#32 0#32).2 ≠ (clearedConfig, IpPoolInd.ofRange 1#32 0#32).2 := by
    decide
  refine assigned_iff (fun x other v => ?_) (fun x same => ?_) free
  · cases x <;> first | rfl | exact (other rfl).elim
  · cases x <;> first | exact ⟨_, fun _ => rfl⟩ | cases same

theorem maxLeaseTime_assigned_iff : Assigned frame (some file) (fun v => v.1.maxLeaseTime) ↔
    ∃ x ∈ settingsOf frame file, x.kind = .maxLeaseTime := by
  have free : (clearedConfig, IpPoolInd.ofRange 0#32 0#32).1.maxLeaseTime ≠
      (onesConfig, IpPoolInd.ofRange 0#32 0#32).1.maxLeaseTime := by decide
  refine assigned_iff (fun x other v => ?_) (fun x same => ?_) free
  · cases x <;> first | rfl | exact (other rfl).elim
  · cases x <;> first | exact ⟨_, fun _ => rfl⟩ | cases same

theorem dns_assigned_iff : Assigned frame (some file) (fun v => v.1.dns.head) ↔
    ∃ x ∈ settingsOf frame file, x.kind = .domainNameServers := by
  have free : (clearedConfig, IpPoolInd.ofRange 0#32 0#32).1.dns.head ≠
      (onesConfig, IpPoolInd.ofRange 0#32 0#32).1.dns.head := by decide
  refine assigned_iff (fun x other v => ?_) (fun x same => ?_) free
  · cases x <;> first | rfl | exact (other rfl).elim
  · cases x <;> first | exact ⟨_, fun _ => rfl⟩ | cases same

end Fields

/-- **Success never means configured**: a file that can be opened is a success, and leaves the router as it
was. The other fields are assigned exactly when a line with their directive comes through. -/
theorem success_configured_iff (frame : StackFrame) :
    (∀ file, SuccessMeansConfigured frame file ↔ file = none) ∧
      ∀ file, ¬ Assigned frame (some file) (fun v => v.1.router) ∧
        (Assigned frame (some file) Prod.snd ↔ ∃ x ∈ settingsOf frame file, x.kind = .range) ∧
        (Assigned frame (some file) (fun v => v.1.maxLeaseTime) ↔
          ∃ x ∈ settingsOf frame file, x.kind = .maxLeaseTime) ∧
        (Assigned frame (some file) (fun v => v.1.dns.head) ↔
          ∃ x ∈ settingsOf frame file, x.kind = .domainNameServers) := by
  refine ⟨fun file => ?_, fun file =>
    ⟨router_not_assigned, pool_assigned_iff, maxLeaseTime_assigned_iff, dns_assigned_iff⟩⟩
  cases file with
  | none =>
    refine iff_of_true (fun success => ?_) rfl
    have failed : (readConfigDhcp frame none clearedConfig (.ofRange 0#32 0#32)).1 = -1 := rfl
    rw [success] at failed
    cases failed
  | some file =>
    refine iff_of_false (fun means => ?_) nofun
    exact router_not_assigned (means fun _ _ => rfl).router

/-- `dhcp_config_file.txt` is read with success, and its router is what `main` happened to pass. -/
theorem dhcp_config_file_not_configured :
    (readConfigDhcp adjacentFrame (some (templateText true lanSettings)) clearedConfig (.ofRange 0#32 0#32)).1 = 0 ∧
      (readConfigDhcp adjacentFrame (some (templateText true lanSettings)) clearedConfig
        (.ofRange 0#32 0#32)).2.config.router = 0#32 ∧
      (readConfigDhcp adjacentFrame (some (templateText true lanSettings)) onesConfig
        (.ofRange 0#32 0#32)).2.config.router = -1#32 ∧
      ¬ SuccessMeansConfigured adjacentFrame (some (templateText true lanSettings)) := by
  refine ⟨rfl, ?_, ?_, fun means => router_not_assigned (means fun _ _ => rfl).router⟩
  · rw [readConfigDhcp_template]
    rfl
  · rw [readConfigDhcp_template]
    rfl

end DhcpServer
