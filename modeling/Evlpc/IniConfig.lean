import Evlpc.Library.CStrings
import Evlpc.Library.Words

/-!
# The ports of the configuration file

`handler` is called with one entry of the file after the other and fills in the
configuration. The record of a port is a local variable whose memory it writes in three
steps: the name, with room counted for the whole record, then the port, then the default
host as it is at that time. The name is put in front of a host and not terminated.
-/

namespace Evlpc

open Library CStrings Words

/-- One call of `handler` by the parser: `section`, `name` and `value`. -/
structure IniEntry where
  sectionName : CString
  name : CString
  value : CString

/-- `"default"`. -/
def defaultSection : List UInt8 := [100, 101, 102, 97, 117, 108, 116]

/-- `"host"`. -/
def hostAttribute : List UInt8 := [104, 111, 115, 116]

/-- `"app_id"`. -/
def appIdSection : List UInt8 := [97, 112, 112, 95, 105, 100]

/-- `"default_port"`. -/
def defaultPortSection : List UInt8 := [100, 101, 102, 97, 117, 108, 116, 95, 112, 111, 114, 116]

/-- `MAX_LEN_SECTION`. -/
def maxLenSection : Nat := 32

/-- `MAX_LEN_ATTRIB_NAME`. -/
def maxLenAttribName : Nat := 32

/-- `sizeof (app_server_port_t)`. -/
def appServerPortSize : Nat := 44

/-- Where `host` begins in a record. -/
def hostOffset : Nat := 8

/-- Where `port` begins in a record. -/
def portOffset : Nat := 40

/-- The memory of a local `app_server_port_t`. -/
structure AppServerPort where
  bytes : List UInt8
  length : bytes.length = appServerPortSize

/-- `configuration`, its arrays by their contents. -/
structure Configuration where
  appName : List UInt8
  defaultHost : List UInt8
  appId : List UInt8
  myDefaultPort : List UInt8
  appServerPorts : List (List UInt8)

/-- `gconfig` as the program starts. -/
def gconfig : Configuration where
  appName := List.replicate 32 0
  defaultHost := List.replicate 32 0
  appId := List.replicate 8 0
  myDefaultPort := List.replicate 8 0
  appServerPorts := []

/-- `MATCH_SECTION`. -/
def matchSection (entry : IniEntry) (expected : List UInt8) : Bool :=
  sameUpTo entry.sectionName.chars expected maxLenSection

/-- `MATCH_NAME`. -/
def matchName (entry : IniEntry) (expected : List UInt8) : Bool :=
  sameUpTo entry.name.chars expected maxLenAttribName

/-- The assignments of `handler` to `app_server_port`. -/
def fillAppServerPort (appServerPort : AppServerPort) (defaultHost : List UInt8) (name : CString)
    (port : Int32) : Option (List UInt8) := do
  let named ← strncpy appServerPort.bytes 0 name.array (appServerPortSize - 1)
  let numbered ← put named portOffset (word32 port.toUInt32)
  strncpy numbered hostOffset defaultHost (32 - 1)

/-- The port that is added to the list, and taken as the own one if it has the name of
the program. -/
def addPort (appServerPort : AppServerPort) (config : Configuration) (appName : List UInt8)
    (entry : IniEntry) (port : Int32) : Option Configuration := do
  let filled ← fillAppServerPort appServerPort config.defaultHost entry.name port
  let added := { config with appServerPorts := config.appServerPorts ++ [filled] }
  if matchName entry appName then
    let myDefaultPort ← strncpy config.myDefaultPort 0 entry.value.array (8 - 1)
    some { added with myDefaultPort }
  else some added

/-- `handler`, with what the memory of its local record holds: the configuration and the
result. -/
def handler (appServerPort : AppServerPort) (config : Configuration) (entry : IniEntry) :
    Option (Configuration × Int32) := do
  let appName ← text config.appName
  if matchSection entry defaultSection && matchName entry hostAttribute then
    let defaultHost ← strncpy config.defaultHost 0 entry.value.array (32 - 1)
    some ({ config with defaultHost }, 1)
  else if matchSection entry appIdSection && matchName entry appName then
    let appId ← strncpy config.appId 0 entry.value.array (8 - 1)
    some ({ config with appId }, 1)
  else if matchSection entry defaultPortSection then
    let port := atoi entry.value.chars
    if 0 < port ∧ port ≤ 65535 then
      let config ← addPort appServerPort config appName entry port
      some (config, 1)
    else some (config, 1)
  else some (config, 0)

/-- The calls of `ini_parse`, which goes on after an entry that is not known. The local
record of each call lies in memory of its own. -/
def iniParse (memory : Nat → AppServerPort) (config : Configuration) (calls : Nat) :
    List IniEntry → Option Configuration
  | [] => some config
  | entry :: later => do
    let handled ← handler (memory calls) config entry
    iniParse memory handled.1 (calls + 1) later

/-- `read_ini_config`, of a file with these entries. -/
def readIniConfig (memory : Nat → AppServerPort) (appName : CString) (entries : List IniEntry) :
    Option Configuration := do
  let appName ← strncpy gconfig.appName 0 appName.array (32 - 1)
  iniParse memory { gconfig with appName } 0 entries

/-- The name in a record, if it ends within it. -/
def recordAppName (record : List UInt8) : Option (List UInt8) := text record

/-- The host of a record, if it ends within it. -/
def recordHost (record : List UInt8) : Option (List UInt8) := text (record.drop hostOffset)

/-- The port of a record. -/
def recordPort (record : List UInt8) : Int32 := (readWord32 (record.drop portOffset)).toInt32

/-- The addresses that `start_all_client_connections` connects to. -/
def startAllClientConnections {Address : Type} (uvIp4Addr : List UInt8 → Int32 → Address)
    (config : Configuration) : Option (List Address) :=
  config.appServerPorts.mapM fun record =>
    (recordHost record).map fun host => uvIp4Addr host (recordPort record)

/-- The entry sets the default host. -/
def IniEntry.SetsHost (entry : IniEntry) : Prop :=
  entry.sectionName.chars = defaultSection ∧ entry.name.chars = hostAttribute

instance (entry : IniEntry) : Decidable entry.SetsHost :=
  inferInstanceAs (Decidable (_ ∧ _))

/-- The entry sets the identification of the program. -/
def IniEntry.SetsAppId (entry : IniEntry) (program : List UInt8) : Prop :=
  entry.sectionName.chars = appIdSection ∧ entry.name.chars = program

instance (entry : IniEntry) (program : List UInt8) : Decidable (entry.SetsAppId program) :=
  inferInstanceAs (Decidable (_ ∧ _))

/-- The entry gives a port that is recorded. -/
def IniEntry.GivesPort (entry : IniEntry) : Prop :=
  entry.sectionName.chars = defaultPortSection ∧
    0 < atoi entry.value.chars ∧ atoi entry.value.chars ≤ 65535

instance (entry : IniEntry) : Decidable entry.GivesPort :=
  inferInstanceAs (Decidable (_ ∧ _ ∧ _))

/-- What a recorded entry configures. -/
structure PortSetting where
  name : CString
  host : CString
  port : Int32

/-- What a file configures. -/
structure Settings where
  defaultHost : CString
  appId : CString
  myDefaultPort : CString
  ports : List PortSetting

/-- The empty string. -/
def emptyString : CString := ⟨[], nil_noNul⟩

/-- Nothing is configured. -/
def Settings.none : Settings := ⟨emptyString, emptyString, emptyString, []⟩

/-- What an entry adds to the settings of a program. -/
def Settings.apply (program : List UInt8) (settings : Settings) (entry : IniEntry) : Settings :=
  if entry.SetsHost then { settings with defaultHost := entry.value }
  else if entry.SetsAppId program then { settings with appId := entry.value }
  else if entry.GivesPort then
    { settings with
      ports := settings.ports ++ [⟨entry.name, settings.defaultHost, atoi entry.value.chars⟩]
      myDefaultPort :=
        if entry.name.chars = program then entry.value else settings.myDefaultPort }
  else settings

/-- The ports that entries configure, each with the default host in force at its
entry. -/
def configuredPorts (defaultHost : CString) : List IniEntry → List PortSetting
  | [] => []
  | entry :: later =>
    if entry.SetsHost then configuredPorts entry.value later
    else if entry.GivesPort then
      ⟨entry.name, defaultHost, atoi entry.value.chars⟩ :: configuredPorts defaultHost later
    else configuredPorts defaultHost later

/-- A record as it comes to be: the start of the name, the host, a byte of the name
again, and the port. -/
def joinRecord (named : CString × Int32) (host : List UInt8) : List UInt8 :=
  padded named.1.chars 8 ++ padded host 31 ++ (padded named.1.chars 40).drop 39 ++
    word32 named.2.toUInt32

/-- The record of a configured port. -/
def PortSetting.record (setting : PortSetting) : List UInt8 :=
  joinRecord (setting.name, setting.port) setting.host.chars

/-- The configuration that holds the settings of a program. -/
def Settings.configuration (program : List UInt8) (settings : Settings) : Configuration where
  appName := padded program 31 ++ [0]
  defaultHost := padded settings.defaultHost.chars 31 ++ [0]
  appId := padded settings.appId.chars 7 ++ [0]
  myDefaultPort := padded settings.myDefaultPort.chars 7 ++ [0]
  appServerPorts := settings.ports.map PortSetting.record

section Matching

variable (entry : IniEntry)

/-- A comparison with a short section is one of the whole name. -/
theorem matchSection_iff (expected : List UInt8) (shorter : expected.length < maxLenSection) :
    matchSection entry expected = true ↔ entry.sectionName.chars = expected :=
  sameUpTo_shorter _ expected maxLenSection shorter

/-- A comparison with a short name is one of the whole name. -/
theorem matchName_iff (expected : List UInt8) (shorter : expected.length < maxLenAttribName) :
    matchName entry expected = true ↔ entry.name.chars = expected :=
  sameUpTo_shorter _ expected maxLenAttribName shorter

/-- The first comparison of the handler finds the entries that set the host. -/
theorem matches_host :
    (matchSection entry defaultSection && matchName entry hostAttribute) = true ↔
      entry.SetsHost := by
  rw [Bool.and_eq_true, matchSection_iff entry defaultSection (by decide),
    matchName_iff entry hostAttribute (by decide), IniEntry.SetsHost]

/-- The second one finds those that set the identification of the program. -/
theorem matches_appId (program : List UInt8) (shorter : program.length < maxLenAttribName) :
    (matchSection entry appIdSection && matchName entry program) = true ↔
      entry.SetsAppId program := by
  rw [Bool.and_eq_true, matchSection_iff entry appIdSection (by decide),
    matchName_iff entry program shorter, IniEntry.SetsAppId]

/-- An entry is in one section. -/
theorem one_section {entry : IniEntry} {expected other : List UInt8} (different : expected ≠ other)
    (isOther : entry.sectionName.chars = other) : entry.sectionName.chars ≠ expected :=
  fun isExpected => different (isExpected.symm.trans isOther)

/-- An entry that gives a port is in another section than the host. -/
theorem givesPort_not_setsHost (gives : entry.GivesPort) : ¬ entry.SetsHost :=
  fun sets => one_section (by decide) gives.1 sets.1

/-- An entry that sets the identification is in another section than the host. -/
theorem setsAppId_not_setsHost (program : List UInt8) (setsAppId : entry.SetsAppId program) :
    ¬ entry.SetsHost :=
  fun sets => one_section (by decide) setsAppId.1 sets.1

/-- An entry that gives a port is in another section than the identification. -/
theorem givesPort_not_setsAppId (program : List UInt8) (gives : entry.GivesPort) :
    ¬ entry.SetsAppId program :=
  fun sets => one_section (by decide) gives.1 sets.1

end Matching

section Records

/-- A copy of a configured string is read as the string, cut to what the array holds. -/
theorem text_copied (string : CString) (count : Nat) (rest : List UInt8) :
    text (padded string.chars count ++ 0 :: rest) = some (string.chars.take count) := by
  have cut : padded string.chars count = padded (string.chars.take count) count :=
    (padded_take string.chars count).symm
  rw [cut]
  refine text_padded_nul _ count rest (fun member => string.noNul (List.mem_of_mem_take member)) ?_
  rw [List.length_take]
  exact Nat.min_le_left count _

/-- Whatever the memory of the local record held, it is overwritten. -/
theorem fillAppServerPort_record (appServerPort : AppServerPort) (setting : PortSetting) :
    fillAppServerPort appServerPort (padded setting.host.chars 31 ++ [0]) setting.name
      setting.port = some setting.record := by
  have size : appServerPort.bytes.length = 44 := appServerPort.length
  have nameText : text setting.name.array = some setting.name.chars :=
    text_terminated _ [] setting.name.noNul
  have nameLength := padded_length setting.name.chars 43
  have named := strncpy_text appServerPort.bytes 0 setting.name.array _ 43 nameText (by omega)
  rw [List.take_zero, List.nil_append] at named
  have wordLength := word32_length setting.port.toUInt32
  have numbered := put_within
    (padded setting.name.chars 43 ++ appServerPort.bytes.drop (0 + 43)) 40
    (word32 setting.port.toUInt32)
    (by rw [List.length_append, List.length_drop]; omega)
  have front : (padded setting.name.chars 43 ++ appServerPort.bytes.drop (0 + 43)).take 40 =
      padded setting.name.chars 40 := by
    rw [List.take_append_of_le_length (by omega), take_padded _ 43 40 (by omega)]
  have nothing : (padded setting.name.chars 43 ++ appServerPort.bytes.drop (0 + 43)).drop
      (40 + (word32 setting.port.toUInt32).length) = [] := by
    apply List.drop_eq_nil_of_le
    rw [List.length_append, List.length_drop]
    omega
  rw [front, nothing, List.append_nil] at numbered
  have hostText := text_copied setting.host 31 []
  have frontLength := padded_length setting.name.chars 40
  have hosted := strncpy_text
    (padded setting.name.chars 40 ++ word32 setting.port.toUInt32) 8
    (padded setting.host.chars 31 ++ [0]) _ 31 hostText
    (by rw [List.length_append]; omega)
  rw [padded_take, List.take_append_of_le_length (by omega), take_padded _ 40 8 (by omega),
    List.drop_append_of_le_length (by omega)] at hosted
  simp only [fillAppServerPort, Option.bind_eq_bind, appServerPortSize, portOffset, hostOffset]
  rw [named, Option.bind_some, numbered, Option.bind_some, hosted, PortSetting.record,
    joinRecord, List.append_assoc _ _ (word32 _)]

variable (setting : PortSetting)

/-- The length of what stands in front of the port. -/
theorem front_length :
    (padded setting.name.chars 8 ++ padded setting.host.chars 31 ++
      (padded setting.name.chars 40).drop 39).length = portOffset := by
  rw [List.length_append, List.length_append, List.length_drop, padded_length, padded_length,
    padded_length]
  rfl

/-- The port is read back. -/
theorem recordPort_record : recordPort setting.record = setting.port := by
  have behind : setting.record.drop portOffset = word32 setting.port.toUInt32 :=
    List.drop_left' (front_length setting)
  have read := read_word32 setting.port.toUInt32 []
  rw [List.append_nil] at read
  rw [recordPort, behind, read]
  rfl

/-- The name is read back, cut to what its field can hold, exactly if the field can hold
all of it: otherwise no NUL follows it. -/
theorem recordAppName_record :
    recordAppName setting.record = some (setting.name.chars.take 7) ↔
      setting.name.chars.length ≤ 7 := by
  have parts : setting.record = padded setting.name.chars 8 ++
      (padded setting.host.chars 31 ++ (padded setting.name.chars 40).drop 39 ++
        word32 setting.port.toUInt32) := by
    rw [PortSetting.record, joinRecord, List.append_assoc, List.append_assoc, List.append_assoc]
  rw [recordAppName, parts]
  constructor
  · intro reads
    by_contra longer
    obtain ⟨-, rest, split⟩ := text_split _ _ reads
    have whole : padded setting.name.chars 8 = setting.name.chars.take 8 := by
      rw [padded, Nat.sub_eq_zero_of_le (by omega), List.replicate_zero, List.append_nil]
    have length : (setting.name.chars.take 7).length = 7 := by
      rw [List.length_take]
      omega
    have atSeven := congrArg (·[7]?) split
    rw [whole, List.getElem?_append_left (by rw [List.length_take]; omega),
      List.getElem?_append_right (by omega), length] at atSeven
    exact setting.name.noNul (List.mem_of_mem_take (List.mem_of_getElem? atSeven))
  · intro within
    rw [List.take_of_length_le within]
    exact text_padded setting.name.chars 8 _ setting.name.noNul (by omega)

/-- The host is read back, cut to what its field can hold, if the name does not reach
its last byte. -/
theorem recordHost_record (short : setting.name.chars.length ≤ 39) :
    recordHost setting.record = some (setting.host.chars.take 31) := by
  have byte : (padded setting.name.chars 40).drop 39 = [0] := by
    rw [padded, List.take_of_length_le (by omega), List.drop_append,
      List.drop_eq_nil_of_le short, List.drop_replicate, List.nil_append]
    have one : 40 - setting.name.chars.length - (39 - setting.name.chars.length) = 1 := by omega
    rw [one]
    rfl
  have behind : setting.record.drop hostOffset =
      padded setting.host.chars 31 ++ 0 :: word32 setting.port.toUInt32 := by
    rw [PortSetting.record, joinRecord, byte, List.append_assoc, List.append_assoc]
    exact List.drop_left' (padded_length setting.name.chars 8)
  rw [recordHost, behind]
  exact text_copied setting.host 31 _

/-- Records tell the hosts apart, as far as their fields can hold them. -/
theorem record_host_bytes :
    (setting.record.drop hostOffset).take 31 = padded setting.host.chars 31 := by
  have behind : setting.record.drop hostOffset = padded setting.host.chars 31 ++
      ((padded setting.name.chars 40).drop 39 ++ word32 setting.port.toUInt32) := by
    rw [PortSetting.record, joinRecord, List.append_assoc, List.append_assoc]
    exact List.drop_left' (padded_length setting.name.chars 8)
  rw [behind]
  exact List.take_left' (padded_length setting.host.chars 31)

end Records

section Refinement

variable (appServerPort : AppServerPort) (memory : Nat → AppServerPort)

/-- The settings after an entry that gives a port. -/
theorem Settings.apply_port (program : List UInt8) (settings : Settings) (entry : IniEntry)
    (gives : entry.GivesPort) :
    settings.apply program entry =
      { settings with
        ports := settings.ports ++ [⟨entry.name, settings.defaultHost, atoi entry.value.chars⟩]
        myDefaultPort :=
          if entry.name.chars = program then entry.value else settings.myDefaultPort } := by
  rw [Settings.apply, if_neg (givesPort_not_setsHost entry gives),
    if_neg (givesPort_not_setsAppId entry program gives), if_pos gives]

/-- A port is added as the settings say. -/
theorem addPort_apply (program : List UInt8) (shorter : program.length < maxLenAttribName)
    (settings : Settings) (entry : IniEntry) (gives : entry.GivesPort) :
    addPort appServerPort (settings.configuration program) program entry
      (atoi entry.value.chars) = some ((settings.apply program entry).configuration program) := by
  have filled := fillAppServerPort_record appServerPort
    ⟨entry.name, settings.defaultHost, atoi entry.value.chars⟩
  have copied := strncpy_again settings.myDefaultPort.chars entry.value.chars 7 entry.value.noNul
  rw [Settings.apply_port program settings entry gives]
  simp only [addPort, Option.bind_eq_bind, Settings.configuration, CString.array]
  rw [filled, Option.bind_some]
  by_cases own : entry.name.chars = program
  · rw [if_pos ((matchName_iff entry program shorter).mpr own), if_pos own, copied,
      Option.bind_some, List.map_append]
    rfl
  · rw [if_neg (fun matched => own ((matchName_iff entry program shorter).mp matched)),
      if_neg own, List.map_append]
    rfl

/-- A call of the handler does to the configuration what the entry does to the
settings. -/
theorem handler_apply (program : CString) (shorter : program.chars.length < maxLenAttribName)
    (settings : Settings) (entry : IniEntry) :
    ∃ result, handler appServerPort (settings.configuration program.chars) entry =
      some ((settings.apply program.chars entry).configuration program.chars, result) := by
  have appName : text (settings.configuration program.chars).appName = some program.chars := by
    have read := text_copied program 31 []
    rwa [List.take_of_length_le (Nat.le_of_lt_succ shorter)] at read
  simp only [handler, Option.bind_eq_bind]
  rw [appName, Option.bind_some]
  by_cases setsHost : entry.SetsHost
  · have copied := strncpy_again settings.defaultHost.chars entry.value.chars 31 entry.value.noNul
    refine ⟨1, ?_⟩
    rw [if_pos ((matches_host entry).mpr setsHost), Settings.apply, if_pos setsHost]
    simp only [Settings.configuration, CString.array]
    rw [copied]
    rfl
  rw [if_neg fun matched => setsHost ((matches_host entry).mp matched)]
  by_cases setsAppId : entry.SetsAppId program.chars
  · have copied := strncpy_again settings.appId.chars entry.value.chars 7 entry.value.noNul
    refine ⟨1, ?_⟩
    rw [if_pos ((matches_appId entry program.chars shorter).mpr setsAppId), Settings.apply,
      if_neg setsHost, if_pos setsAppId]
    simp only [Settings.configuration, CString.array]
    rw [copied]
    rfl
  rw [if_neg fun matched => setsAppId ((matches_appId entry program.chars shorter).mp matched)]
  by_cases gives : entry.GivesPort
  · refine ⟨1, ?_⟩
    rw [if_pos ((matchSection_iff entry defaultPortSection (by decide)).mpr gives.1),
      if_pos gives.2, addPort_apply appServerPort program.chars shorter settings entry gives]
    rfl
  rw [Settings.apply, if_neg setsHost, if_neg setsAppId, if_neg gives]
  by_cases ofPorts : matchSection entry defaultPortSection = true
  · refine ⟨1, ?_⟩
    have named := (matchSection_iff entry defaultPortSection (by decide)).mp ofPorts
    rw [if_pos ofPorts, if_neg fun inRange => gives ⟨named, inRange⟩]
  · exact ⟨0, by rw [if_neg ofPorts]⟩

/-- The parser's calls do to the configuration what the entries do to the settings. -/
theorem iniParse_settings (program : CString)
    (shorter : program.chars.length < maxLenAttribName) (settings : Settings) (calls : Nat)
    (entries : List IniEntry) :
    iniParse memory (settings.configuration program.chars) calls entries =
      some ((entries.foldl (Settings.apply program.chars) settings).configuration
        program.chars) := by
  induction entries generalizing settings calls with
  | nil => rfl
  | cons entry later inductionHypothesis =>
    obtain ⟨result, handled⟩ := handler_apply (memory calls) program shorter settings entry
    simp only [iniParse, Option.bind_eq_bind]
    rw [handled, Option.bind_some, List.foldl_cons]
    exact inductionHypothesis (settings.apply program.chars entry) (calls + 1)

/-- The name of a program, as far as the configuration can hold it. -/
def programName (appName : CString) : CString where
  chars := appName.chars.take 31
  noNul := fun member => appName.noNul (List.mem_of_mem_take member)

/-- The name of the program is cut to what its array can hold. -/
theorem programName_shorter (appName : CString) :
    (programName appName).chars.length < maxLenAttribName := by
  have length : (programName appName).chars.length = min 31 appName.chars.length :=
    List.length_take
  have size : maxLenAttribName = 32 := rfl
  omega

/-- The settings that a file gives a program. -/
def fileSettings (appName : CString) (entries : List IniEntry) : Settings :=
  entries.foldl (Settings.apply (programName appName).chars) .none

/-- Reading a file gives the configuration that holds its settings. -/
theorem readIniConfig_settings (appName : CString) (entries : List IniEntry) :
    readIniConfig memory appName entries =
      some ((fileSettings appName entries).configuration (programName appName).chars) := by
  have copied := strncpy_again [] appName.chars 31 appName.noNul
  rw [← padded_take appName.chars] at copied
  have blank : gconfig.appName = padded [] 31 ++ [0] := rfl
  simp only [readIniConfig, Option.bind_eq_bind, CString.array]
  rw [blank, copied, Option.bind_some]
  exact iniParse_settings memory (programName appName) (programName_shorter appName) .none 0
    entries

/-- The ports of the settings are the configured ones. -/
theorem foldl_ports (program : List UInt8) (settings : Settings) (entries : List IniEntry) :
    (entries.foldl (Settings.apply program) settings).ports =
      settings.ports ++ configuredPorts settings.defaultHost entries := by
  induction entries generalizing settings with
  | nil => exact (List.append_nil settings.ports).symm
  | cons entry later inductionHypothesis =>
    rw [List.foldl_cons, inductionHypothesis, configuredPorts]
    by_cases setsHost : entry.SetsHost
    · rw [if_pos setsHost, Settings.apply, if_pos setsHost]
    rw [if_neg setsHost]
    by_cases gives : entry.GivesPort
    · rw [if_pos gives, Settings.apply_port program settings entry gives, List.append_assoc]
      rfl
    rw [if_neg gives, Settings.apply, if_neg setsHost]
    by_cases setsAppId : entry.SetsAppId program
    · rw [if_pos setsAppId]
    · rw [if_neg setsAppId, if_neg gives]

end Refinement

/-- What a record should give: the port, the host and the name, both as far as their
fields can hold them. -/
def PortSetting.expected (setting : PortSetting) :
    Int32 × Option (List UInt8) × Option (List UInt8) :=
  (setting.port, some (setting.host.chars.take 31), some (setting.name.chars.take 7))

/-- What a record gives. -/
def recordFields (record : List UInt8) : Int32 × Option (List UInt8) × Option (List UInt8) :=
  (recordPort record, recordHost record, recordAppName record)

section ConfiguredPorts

/-- A record is as expected exactly if the name fits. -/
theorem recordFields_expected (setting : PortSetting) :
    recordFields setting.record = setting.expected ↔ setting.name.chars.length ≤ 7 := by
  rw [recordFields, PortSetting.expected, Prod.mk.injEq, Prod.mk.injEq,
    recordAppName_record]
  constructor
  · rintro ⟨-, -, within⟩
    exact within
  · intro within
    exact ⟨recordPort_record setting, recordHost_record setting (by omega), within⟩

/-- The names of the configured ports are those of the entries that give them. -/
theorem configuredPorts_names (Fits : CString → Prop) (defaultHost : CString)
    (entries : List IniEntry) :
    (∀ setting ∈ configuredPorts defaultHost entries, Fits setting.name) ↔
      ∀ entry ∈ entries, entry.GivesPort → Fits entry.name := by
  induction entries generalizing defaultHost with
  | nil =>
    constructor
    · intro _ entry member
      cases member
    · intro _ setting member
      cases member
  | cons entry later inductionHypothesis =>
    rw [List.forall_mem_cons, configuredPorts]
    by_cases setsHost : entry.SetsHost
    · have gives : ¬ entry.GivesPort := fun gives => givesPort_not_setsHost entry gives setsHost
      rw [if_pos setsHost, inductionHypothesis]
      exact ⟨fun rest => ⟨fun given => absurd given gives, rest⟩, fun both => both.2⟩
    rw [if_neg setsHost]
    by_cases gives : entry.GivesPort
    · rw [if_pos gives, List.forall_mem_cons, inductionHypothesis]
      exact and_congr_left fun _ => ⟨fun fits _ => fits, fun fits => fits gives⟩
    · rw [if_neg gives, inductionHypothesis]
      exact ⟨fun rest => ⟨fun given => absurd given gives, rest⟩, fun both => both.2⟩

variable (memory : Nat → AppServerPort) (appName : CString) (entries : List IniEntry)

/-- The list of ports of a file has one record for each entry that gives a port, in their
order, with this port, the default host in force at the entry and its name, exactly if
none of these names has more than seven characters. -/
theorem configured_ports_iff :
    ∃ config, readIniConfig memory appName entries = some config ∧
      (config.appServerPorts.map recordFields =
          (configuredPorts emptyString entries).map PortSetting.expected ↔
        ∀ entry ∈ entries, entry.GivesPort → entry.name.chars.length ≤ 7) := by
  refine ⟨_, readIniConfig_settings memory appName entries, ?_⟩
  have ports : (fileSettings appName entries).ports = configuredPorts emptyString entries :=
    foldl_ports _ .none entries
  have fits := configuredPorts_names (fun name => name.chars.length ≤ 7) emptyString entries
  rw [← fits, Settings.configuration, ports, List.map_map, List.map_inj_left]
  exact forall₂_congr fun setting _ => recordFields_expected setting

end ConfiguredPorts

/-- Characters without a NUL that is known by evaluation. -/
def literal (chars : List UInt8) (noNul : chars.all (· ≠ 0) = true) : CString where
  chars := chars
  noNul := fun member => of_decide_eq_true (List.all_eq_true.mp noNul 0 member) rfl

/-- `cfgagent`, the name that `main` reads the configuration for. -/
def cfgagentName : CString := literal [99, 102, 103, 97, 103, 101, 110, 116] rfl

/-- `default_port`, as the name of a section. -/
def defaultPortName : CString := literal defaultPortSection rfl

/-- A local record that held NULs. -/
def blankRecord : AppServerPort := ⟨List.replicate 44 0, rfl⟩

/-- `host = 127.0.0.1` of the section `default`. -/
def hostEntry : IniEntry where
  sectionName := literal defaultSection rfl
  name := literal hostAttribute rfl
  value := literal [49, 50, 55, 46, 48, 46, 48, 46, 49] rfl

/-- `service_monitor = 7000` of the section `default_port`. -/
def serviceMonitorEntry : IniEntry where
  sectionName := defaultPortName
  name := literal [115, 101, 114, 118, 105, 99, 101, 95, 109, 111, 110, 105, 116, 111, 114] rfl
  value := literal [55, 48, 48, 48] rfl

/-- The name `service_monitor` of the repository's own file reads as
`service_127.0.0.1`. -/
theorem service_monitor_reads_on :
    (∀ entry ∈ [hostEntry, serviceMonitorEntry],
      1 ≤ entry.name.chars.length ∧ entry.name.chars.length ≤ 31) ∧
    (∃ config, readIniConfig (fun _ => blankRecord) cfgagentName
        [hostEntry, serviceMonitorEntry] = some config ∧
      config.appServerPorts.map recordAppName =
        [some ([115, 101, 114, 118, 105, 99, 101, 95] ++ hostEntry.value.chars)]) ∧
    ¬ ∃ config, readIniConfig (fun _ => blankRecord) cfgagentName
        [hostEntry, serviceMonitorEntry] = some config ∧
      config.appServerPorts.map recordFields =
        (configuredPorts emptyString [hostEntry, serviceMonitorEntry]).map
          PortSetting.expected := by
  have read := readIniConfig_settings (fun _ => blankRecord) cfgagentName
    [hostEntry, serviceMonitorEntry]
  refine ⟨?_, ⟨_, read, rfl⟩, ?_⟩
  · intro entry member
    rcases List.mem_cons.mp member with rfl | member
    · decide
    · obtain rfl := List.mem_singleton.mp member
      decide
  · rintro ⟨config, again, records⟩
    obtain rfl := Option.some.inj (read.symm.trans again)
    have names := congrArg (List.map fun fields => fields.2.2) records
    revert names
    decide

end Evlpc
