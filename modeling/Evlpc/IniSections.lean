import Evlpc.IniConfig
import Evlpc.Library.Folds

/-!
# The order of the sections of the configuration file

Each section decides a part of the configuration of its own, with one exception: the
record of a port holds the default host as it is when the record is read. A file whose
sections change places can therefore configure other hosts, and nothing else.
-/

namespace Evlpc

open Library CStrings Words

section Reordering

/-- The sequences have the same entries in each section, in the same order. -/
def SameBySection (entries others : List IniEntry) : Prop :=
  ∀ sectionName : List UInt8,
    entries.filter (fun entry => entry.sectionName.chars = sectionName) =
      others.filter (fun entry => entry.sectionName.chars = sectionName)

/-- The default hosts that the recorded ports of a file find in force. -/
def hostsInForce (entries : List IniEntry) : List (List UInt8) :=
  (configuredPorts emptyString entries).map fun setting => setting.host.chars.take 31

/-- The record without the characters that `strncpy` writes to its host. -/
def recordWithoutHost (record : List UInt8) : List UInt8 :=
  record.take hostOffset ++ record.drop 39

/-- The configuration without the hosts of its records. -/
def Configuration.withoutHosts (config : Configuration) : Configuration :=
  { config with appServerPorts := config.appServerPorts.map recordWithoutHost }

variable (program : List UInt8) (settings : Settings) (entry : IniEntry)

/-- Only an entry that sets the host changes it. -/
theorem apply_defaultHost :
    (settings.apply program entry).defaultHost =
      if entry.SetsHost then entry.value else settings.defaultHost := by
  rw [Settings.apply]
  split
  · rfl
  split
  · rfl
  split <;> rfl

/-- Only an entry that sets the identification changes it. -/
theorem apply_appId :
    (settings.apply program entry).appId =
      if entry.SetsAppId program then entry.value else settings.appId := by
  by_cases setsAppId : entry.SetsAppId program
  · rw [if_pos setsAppId, Settings.apply,
      if_neg (setsAppId_not_setsHost entry program setsAppId), if_pos setsAppId]
  · rw [if_neg setsAppId, Settings.apply]
    split
    · rfl
    split <;> rfl

/-- What the settings hold of the section of ports, without the hosts. -/
def Settings.portSection (settings : Settings) : CString × List (CString × Int32) :=
  (settings.myDefaultPort, settings.ports.map fun setting => (setting.name, setting.port))

/-- What an entry adds to it. -/
def addPortEntry (program : List UInt8) (held : CString × List (CString × Int32))
    (entry : IniEntry) : CString × List (CString × Int32) :=
  if entry.GivesPort then
    (if entry.name.chars = program then entry.value else held.1,
      held.2 ++ [(entry.name, atoi entry.value.chars)])
  else held

/-- Only the entries of the section of ports change what is held of it. -/
theorem apply_portSection :
    (settings.apply program entry).portSection =
      addPortEntry program settings.portSection entry := by
  rw [addPortEntry]
  by_cases gives : entry.GivesPort
  · rw [if_pos gives, Settings.apply_port program settings entry gives, Settings.portSection,
      List.map_append]
    rfl
  · rw [if_neg gives, Settings.apply, if_neg gives]
    split
    · rfl
    split <;> rfl

variable {entries others : List IniEntry}

/-- What only the entries of one section change is decided by that section. -/
theorem same_section_view {π : Type} (sectionName : List UInt8) (view : Settings → π)
    (viewStep : π → IniEntry → π)
    (follows : ∀ settings entry,
      view (Settings.apply program settings entry) = viewStep (view settings) entry)
    (elsewhere : ∀ held entry, entry.sectionName.chars ≠ sectionName → viewStep held entry = held)
    (same : SameBySection entries others) :
    view (entries.foldl (Settings.apply program) settings) =
      view (others.foldl (Settings.apply program) settings) := by
  refine foldl_view_congr _ view viewStep (fun entry => entry.sectionName.chars = sectionName) ?_
    ?_ settings entries others (same sectionName)
  · intro settings entry _
    exact follows settings entry
  · intro settings entry ofOther
    rw [follows]
    exact elsewhere (view settings) entry ofOther

/-- The last host is the same in both files. -/
theorem same_default_host (same : SameBySection entries others) :
    (entries.foldl (Settings.apply program) settings).defaultHost =
      (others.foldl (Settings.apply program) settings).defaultHost := by
  refine same_section_view program settings defaultSection Settings.defaultHost
    (fun host entry => if entry.SetsHost then entry.value else host)
    (apply_defaultHost program) ?_ same
  intro host entry ofOther
  exact if_neg fun sets => ofOther sets.1

/-- The last identification is the same in both files. -/
theorem same_app_id (same : SameBySection entries others) :
    (entries.foldl (Settings.apply program) settings).appId =
      (others.foldl (Settings.apply program) settings).appId := by
  refine same_section_view program settings appIdSection Settings.appId
    (fun appId entry => if entry.SetsAppId program then entry.value else appId)
    (apply_appId program) ?_ same
  intro appId entry ofOther
  exact if_neg fun sets => ofOther sets.1

/-- What is held of the section of ports is the same for both files. -/
theorem same_port_section (same : SameBySection entries others) :
    (entries.foldl (Settings.apply program) settings).portSection =
      (others.foldl (Settings.apply program) settings).portSection := by
  refine same_section_view program settings defaultPortSection Settings.portSection
    (addPortEntry program) (apply_portSection program) ?_ same
  intro held entry ofOther
  exact if_neg fun gives => ofOther gives.1

/-- Records are made of the names, the ports and what the host fields can hold. -/
theorem records_joined (ports : List PortSetting) :
    ports.map PortSetting.record =
      List.zipWith joinRecord (ports.map fun setting => (setting.name, setting.port))
        (ports.map fun setting => setting.host.chars.take 31) := by
  rw [List.zipWith_map, List.zipWith_self]
  apply List.map_congr_left
  intro setting _
  rw [joinRecord, padded_take]
  rfl

/-- The host as the record holds it. -/
theorem hosts_of_records (ports : List PortSetting) :
    ports.map (fun setting => some (setting.host.chars.take 31)) =
      (ports.map PortSetting.record).map
        fun record => text ((record.drop hostOffset).take 31 ++ [0]) := by
  rw [List.map_map]
  apply List.map_congr_left
  intro setting _
  rw [Function.comp_apply, record_host_bytes]
  exact (text_copied setting.host 31 []).symm

/-- Without its host, a record holds the name and the port. -/
theorem recordWithoutHost_record (setting : PortSetting) :
    recordWithoutHost setting.record =
      padded setting.name.chars 8 ++ ((padded setting.name.chars 40).drop 39 ++
        word32 setting.port.toUInt32) := by
  have parts : setting.record = padded setting.name.chars 8 ++ padded setting.host.chars 31 ++
      ((padded setting.name.chars 40).drop 39 ++ word32 setting.port.toUInt32) := by
    rw [PortSetting.record, joinRecord, List.append_assoc]
  have front : setting.record.take hostOffset = padded setting.name.chars 8 := by
    rw [parts, List.append_assoc]
    exact List.take_left' (padded_length setting.name.chars 8)
  have behind : setting.record.drop 39 =
      (padded setting.name.chars 40).drop 39 ++ word32 setting.port.toUInt32 := by
    rw [parts]
    exact List.drop_left' (by rw [List.length_append, padded_length, padded_length])
  rw [recordWithoutHost, front, behind]

/-- Settings that agree in all but the hosts of the ports give configurations that do. -/
theorem withoutHosts_of_parts (settings other : Settings)
    (defaultHost : settings.defaultHost = other.defaultHost) (appId : settings.appId = other.appId)
    (portSection : settings.portSection = other.portSection) :
    (settings.configuration program).withoutHosts = (other.configuration program).withoutHosts := by
  have named (ports : List PortSetting) : (ports.map PortSetting.record).map recordWithoutHost =
      (ports.map fun setting => (setting.name, setting.port)).map fun named =>
        padded named.1.chars 8 ++
          ((padded named.1.chars 40).drop 39 ++ word32 named.2.toUInt32) := by
    rw [List.map_map, List.map_map]
    apply List.map_congr_left
    intro setting _
    exact recordWithoutHost_record setting
  obtain ⟨myDefaultPort, ports⟩ := Prod.mk.inj portSection
  simp only [Configuration.withoutHosts, Settings.configuration]
  rw [defaultHost, appId, myDefaultPort, named, named, ports]

/-- Then they are equal exactly if the hosts of the ports agree as well. -/
theorem configuration_eq_iff (settings other : Settings)
    (defaultHost : settings.defaultHost = other.defaultHost) (appId : settings.appId = other.appId)
    (portSection : settings.portSection = other.portSection) :
    settings.configuration program = other.configuration program ↔
      (settings.ports.map fun setting => setting.host.chars.take 31) =
        other.ports.map fun setting => setting.host.chars.take 31 := by
  obtain ⟨myDefaultPort, ports⟩ := Prod.mk.inj portSection
  constructor
  · intro same
    have records : settings.ports.map PortSetting.record = other.ports.map PortSetting.record :=
      congrArg Configuration.appServerPorts same
    have hosts := hosts_of_records settings.ports
    rw [records, ← hosts_of_records other.ports] at hosts
    have unwrapped := congrArg (List.map fun host => Option.getD host []) hosts
    rw [List.map_map, List.map_map] at unwrapped
    exact unwrapped
  · intro hosts
    rw [Settings.configuration, Settings.configuration, defaultHost, appId, myDefaultPort,
      records_joined settings.ports, records_joined other.ports, ports, hosts]

variable (memory otherMemory : Nat → AppServerPort) (appName : CString)
variable {Address : Type} (uvIp4Addr : List UInt8 → Int32 → Address)

/-- Files that only mix their sections differently give configurations that differ at
most in the hosts of the records. The configurations and the addresses that are connected
to are the same exactly if each recorded port finds the same default host in force. -/
theorem section_order_iff (same : SameBySection entries others) :
    ∃ config other, readIniConfig memory appName entries = some config ∧
      readIniConfig otherMemory appName others = some other ∧
      config.withoutHosts = other.withoutHosts ∧
      ((config = other ∧
          startAllClientConnections uvIp4Addr config =
            startAllClientConnections uvIp4Addr other) ↔
        hostsInForce entries = hostsInForce others) := by
  have defaultHost := same_default_host (programName appName).chars .none same
  have appId := same_app_id (programName appName).chars .none same
  have portSection := same_port_section (programName appName).chars .none same
  refine ⟨_, _, readIniConfig_settings memory appName entries,
    readIniConfig_settings otherMemory appName others,
    withoutHosts_of_parts _ _ _ defaultHost appId portSection, ?_⟩
  have ports (file : List IniEntry) :
      (fileSettings appName file).ports = configuredPorts emptyString file :=
    foldl_ports _ .none file
  have equal := configuration_eq_iff (programName appName).chars (fileSettings appName entries)
    (fileSettings appName others) defaultHost appId portSection
  rw [ports, ports] at equal
  constructor
  · rintro ⟨configs, -⟩
    exact equal.mp configs
  · intro hosts
    have configs := equal.mpr hosts
    exact ⟨configs, by rw [configs]⟩

end Reordering

/-- `ca_log = 6999` of the section `default_port`. -/
def caLogEntry : IniEntry where
  sectionName := defaultPortName
  name := literal [99, 97, 95, 108, 111, 103] rfl
  value := literal [54, 57, 57, 57] rfl

/-- `color = red` of a section that is not read. -/
def unreadEntry : IniEntry where
  sectionName := literal [118, 105, 101, 119] rfl
  name := literal [99, 111, 108, 111, 114] rfl
  value := literal [114, 101, 100] rfl

/-- Neighbours of different sections can change places. -/
theorem swapped_sections (one other : IniEntry) (back : List IniEntry)
    (different : one.sectionName.chars ≠ other.sectionName.chars) :
    SameBySection (one :: other :: back) (other :: one :: back) := by
  intro sectionName
  by_cases ofOne : one.sectionName.chars = sectionName
  · have notOfOther : ¬ other.sectionName.chars = sectionName := fun ofOther =>
      different (ofOne.trans ofOther.symm)
    simp [ofOne, notOfOther]
  · simp [List.filter_cons, ofOne]

/-- A section that is not read can stand anywhere. Of the others, the one with the host
has to come first. -/
theorem section_order_swapped :
    (∃ config other,
      readIniConfig (fun _ => blankRecord) cfgagentName [unreadEntry, hostEntry, caLogEntry] =
        some config ∧
      readIniConfig (fun _ => blankRecord) cfgagentName [hostEntry, unreadEntry, caLogEntry] =
        some other ∧
      config = other ∧
      startAllClientConnections Prod.mk config = startAllClientConnections Prod.mk other) ∧
    ∃ config other,
      readIniConfig (fun _ => blankRecord) cfgagentName [caLogEntry, hostEntry] = some config ∧
      readIniConfig (fun _ => blankRecord) cfgagentName [hostEntry, caLogEntry] = some other ∧
      config.withoutHosts = other.withoutHosts ∧
      ¬ (config = other ∧ startAllClientConnections Prod.mk config =
        startAllClientConnections Prod.mk other) := by
  constructor
  · obtain ⟨config, other, read, readOther, -, equal⟩ := section_order_iff (fun _ => blankRecord)
      (fun _ => blankRecord) cfgagentName Prod.mk
      (swapped_sections unreadEntry hostEntry [caLogEntry] (by decide))
    obtain ⟨configs, addresses⟩ := equal.mpr (by decide +kernel)
    exact ⟨config, other, read, readOther, configs, addresses⟩
  · obtain ⟨config, other, read, readOther, hostless, equal⟩ :=
      section_order_iff (fun _ => blankRecord) (fun _ => blankRecord) cfgagentName Prod.mk
        (swapped_sections caLogEntry hostEntry [] (by decide))
    have different :
        hostsInForce [caLogEntry, hostEntry] ≠ hostsInForce [hostEntry, caLogEntry] := by
      decide +kernel
    exact ⟨config, other, read, readOther, hostless, fun same => different (equal.mp same)⟩

/-- With the section of the ports in front, the record has no host. -/
theorem ports_first_without_host :
    SameBySection [caLogEntry, hostEntry] [hostEntry, caLogEntry] ∧
    ∃ config other,
      readIniConfig (fun _ => blankRecord) cfgagentName [caLogEntry, hostEntry] = some config ∧
      readIniConfig (fun _ => blankRecord) cfgagentName [hostEntry, caLogEntry] = some other ∧
      config ≠ other ∧
      startAllClientConnections Prod.mk config = some [([], 6999)] ∧
      startAllClientConnections Prod.mk other = some [(hostEntry.value.chars, 6999)] := by
  have portsFirst : startAllClientConnections Prod.mk
      ((fileSettings cfgagentName [caLogEntry, hostEntry]).configuration
        (programName cfgagentName).chars) = some [([], 6999)] := by decide +kernel
  have hostFirst : startAllClientConnections Prod.mk
      ((fileSettings cfgagentName [hostEntry, caLogEntry]).configuration
        (programName cfgagentName).chars) = some [(hostEntry.value.chars, 6999)] := by
    decide +kernel
  refine ⟨swapped_sections _ _ [] (by decide), _, _, readIniConfig_settings _ _ _,
    readIniConfig_settings _ _ _, ?_, portsFirst, hostFirst⟩
  intro same
  rw [same, hostFirst] at portsFirst
  revert portsFirst
  decide

end Evlpc
