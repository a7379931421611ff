import Evlpc.IniComments
import Evlpc.IniDump
import Evlpc.IniSections

/-!
# Reading the configuration file of a program

`read_ini_config` of `cfgagent` and of `ca_log` give the parser handlers of their own. The
file decides the configuration by its entries alone: neither the memory in which the
records of ports come to be nor malformed lines and unknown entries change it. The two
programs agree on what both of them read, except for an own port that only one of them
checks.
-/

namespace Evlpc

open Library CStrings Scanning

/-- `handler` of `cfgagent` as the parser calls it, with the number of calls so far. -/
def configHandler (memory : Nat → AppServerPort) : Inih.Handler (Configuration × Nat) :=
  fun user entry => do
    let handled ← handler (memory user.2) user.1 entry
    some ((handled.1, user.2 + 1), handled.2)

/-- `read_ini_config` of `cfgagent`, with the file if it can be opened: the configuration
and the result. -/
def readIniConfigFile (memory : Nat → AppServerPort) (appName : CString)
    (file : Option (List UInt8)) : Option (Configuration × Int32) := do
  let appName ← strncpy gconfig.appName 0 appName.array (32 - 1)
  let parsed ← Inih.iniParse (configHandler memory) file ({ gconfig with appName }, 0)
  some (parsed.2.1, if parsed.1 < 0 then 1 else 0)

/-- `configuration` of `ca_log`. -/
structure LogConfiguration where
  appName : List UInt8
  defaultHost : List UInt8
  appId : List UInt8
  defaultPort : List UInt8

/-- `gconfig` of `ca_log` as the program starts. -/
def logGconfig : LogConfiguration where
  appName := List.replicate 32 0
  defaultHost := List.replicate 32 0
  appId := List.replicate 8 0
  defaultPort := List.replicate 8 0

/-- `MATCH` of `ca_log`. -/
def strcmpMatch (entry : IniEntry) (sectionName name : List UInt8) : Bool :=
  entry.sectionName.chars = sectionName && entry.name.chars = name

/-- `handler` of `ca_log`. -/
def logHandler : Inih.Handler LogConfiguration := fun config entry => do
  let appName ← text config.appName
  if strcmpMatch entry defaultSection hostAttribute then
    let defaultHost ← strncpy config.defaultHost 0 entry.value.array (32 - 1)
    some ({ config with defaultHost }, 1)
  else if strcmpMatch entry appIdSection appName then
    let appId ← strncpy config.appId 0 entry.value.array (8 - 1)
    some ({ config with appId }, 1)
  else if strcmpMatch entry defaultPortSection appName then
    let defaultPort ← strncpy config.defaultPort 0 entry.value.array (8 - 1)
    some ({ config with defaultPort }, 1)
  else some (config, 0)

/-- `read_ini_config` of `ca_log`. -/
def readLogConfigFile (appName : CString) (file : Option (List UInt8)) :
    Option (LogConfiguration × Int32) := do
  let appName ← strncpy logGconfig.appName 0 appName.array (32 - 1)
  let parsed ← Inih.iniParse logHandler file { logGconfig with appName }
  some (parsed.2, if parsed.1 < 0 then 1 else 0)

/-- The entry gives the port of the program itself. -/
def IniEntry.OwnPort (entry : IniEntry) (program : List UInt8) : Prop :=
  entry.sectionName.chars = defaultPortSection ∧ entry.name.chars = program

instance (entry : IniEntry) (program : List UInt8) : Decidable (entry.OwnPort program) :=
  inferInstanceAs (Decidable (_ ∧ _))

/-- What a file configures for `ca_log`. -/
structure LogSettings where
  defaultHost : CString
  appId : CString
  defaultPort : CString

/-- Nothing is configured. -/
def LogSettings.none : LogSettings := ⟨emptyString, emptyString, emptyString⟩

/-- What an entry adds to the settings of a program. -/
def LogSettings.apply (program : List UInt8) (settings : LogSettings) (entry : IniEntry) :
    LogSettings :=
  if entry.SetsHost then { settings with defaultHost := entry.value }
  else if entry.SetsAppId program then { settings with appId := entry.value }
  else if entry.OwnPort program then { settings with defaultPort := entry.value }
  else settings

/-- The configuration that holds the settings of a program. -/
def LogSettings.configuration (program : List UInt8) (settings : LogSettings) :
    LogConfiguration where
  appName := padded program 31 ++ [0]
  defaultHost := padded settings.defaultHost.chars 31 ++ [0]
  appId := padded settings.appId.chars 7 ++ [0]
  defaultPort := padded settings.defaultPort.chars 7 ++ [0]

/-- The settings that a file gives a program. -/
def logFileSettings (appName : CString) (entries : List IniEntry) : LogSettings :=
  entries.foldl (LogSettings.apply (programName appName).chars) .none

/-- The value of the last entry with a property. -/
def lastValue (entries : List IniEntry) (Sets : IniEntry → Prop) [DecidablePred Sets] : CString :=
  ((entries.filter (Sets ·)).getLast?.map IniEntry.value).getD emptyString

section Reading

variable {User : Type} (handler : Inih.Handler User)

/-- A file that can be opened is never reported as one that cannot. -/
theorem iniParse_opened (file : List UInt8) (user : User) :
    ((Inih.iniParse handler (some file) user).bind fun parsed =>
        some (parsed.2, if parsed.1 < 0 then (1 : Int32) else 0)) =
      (Inih.handleAll handler user (Inih.entries file)).map fun handled => (handled.1, 0) := by
  rw [Inih.iniParse, Inih.iniParseFile_events, Inih.handleEvents, Option.map_map,
    Option.bind_map, Option.map_eq_bind]
  refine Option.bind_congr fun handled _ => ?_
  have notNegative (error : Nat) : ¬ (error : Int) < 0 := Int.not_lt.mpr (Int.natCast_nonneg error)
  simp only [Function.comp]
  rw [if_neg (notNegative _)]

/-- The calls of the parser give `cfgagent` the configuration that its entries give. -/
theorem handleAll_config (memory : Nat → AppServerPort) (config : Configuration) (count : Nat)
    (given : List IniEntry) :
    (Inih.handleAll (configHandler memory) (config, count) given).map
        (fun handled => handled.1.1) = iniParse memory config count given := by
  induction given generalizing config count with
  | nil => rfl
  | cons entry later inductionHypothesis =>
    rw [Inih.handleAll, iniParse, configHandler]
    simp only [Option.bind_eq_bind, Option.bind_assoc, Option.bind_some, Option.map_bind]
    refine Option.bind_congr fun handled _ => ?_
    rw [← inductionHypothesis handled.1 (count + 1), Function.comp_apply, Option.map_bind,
      Option.map_eq_bind]
    rfl

/-- The name of the program in an array for it. -/
theorem programName_copied (appName : CString) :
    strncpy (List.replicate 32 0) 0 appName.array (32 - 1) =
      some (padded (programName appName).chars 31 ++ [0]) := by
  have copied := strncpy_again [] appName.chars 31 appName.noNul
  rw [← padded_take appName.chars] at copied
  exact copied

/-- A file gives `cfgagent` the settings of its entries. -/
theorem readIniConfigFile_settings (memory : Nat → AppServerPort) (appName : CString)
    (file : List UInt8) :
    readIniConfigFile memory appName (some file) =
      some ((fileSettings appName (Inih.entries file)).configuration (programName appName).chars,
        0) := by
  have opened := iniParse_opened (configHandler memory) file
    ({ gconfig with appName := padded (programName appName).chars 31 ++ [0] }, 0)
  have read := handleAll_config memory
    { gconfig with appName := padded (programName appName).chars 31 ++ [0] } 0 (Inih.entries file)
  have settings := iniParse_settings memory (programName appName) (programName_shorter appName)
    .none 0 (Inih.entries file)
  obtain ⟨handled, called, config⟩ := Option.map_eq_some_iff.mp (read.trans settings)
  simp only [readIniConfigFile, Option.bind_eq_bind]
  rw [show gconfig.appName = List.replicate 32 0 from rfl, programName_copied, Option.bind_some]
  rw [called, Option.map_some] at opened
  obtain ⟨parsed, returned, result⟩ := Option.bind_eq_some_iff.mp opened
  obtain ⟨user, zero⟩ := Prod.mk.inj (Option.some.inj result)
  rw [returned, Option.bind_some, zero, user, config]
  rfl

end Reading

section LogReading

variable (entry : IniEntry)

/-- `strcmp` compares the whole names. -/
theorem strcmpMatch_iff (sectionName name : List UInt8) :
    strcmpMatch entry sectionName name = true ↔
      entry.sectionName.chars = sectionName ∧ entry.name.chars = name := by
  rw [strcmpMatch, Bool.and_eq_true, decide_eq_true_iff, decide_eq_true_iff]

/-- The own port is in another section than the host. -/
theorem ownPort_not_setsHost (program : List UInt8) (own : entry.OwnPort program) :
    ¬ entry.SetsHost :=
  fun sets => one_section (by decide) own.1 sets.1

/-- The own port is in another section than the identification. -/
theorem ownPort_not_setsAppId (program : List UInt8) (own : entry.OwnPort program) :
    ¬ entry.SetsAppId program :=
  fun sets => one_section (by decide) own.1 sets.1

/-- A call of the handler does to the configuration what the entry does to the
settings. -/
theorem logHandler_apply (program : CString) (shorter : program.chars.length < maxLenAttribName)
    (settings : LogSettings) :
    ∃ result, logHandler (settings.configuration program.chars) entry =
      some ((settings.apply program.chars entry).configuration program.chars, result) := by
  have appName : text (settings.configuration program.chars).appName = some program.chars := by
    have read := text_copied program 31 []
    rwa [List.take_of_length_le (Nat.le_of_lt_succ shorter)] at read
  simp only [logHandler, Option.bind_eq_bind]
  rw [appName, Option.bind_some]
  by_cases setsHost : entry.SetsHost
  · have copied := strncpy_again settings.defaultHost.chars entry.value.chars 31 entry.value.noNul
    refine ⟨1, ?_⟩
    rw [if_pos ((strcmpMatch_iff entry _ _).mpr setsHost), LogSettings.apply, if_pos setsHost]
    simp only [LogSettings.configuration, CString.array]
    rw [copied]
    rfl
  rw [if_neg fun matched => setsHost ((strcmpMatch_iff entry _ _).mp matched)]
  by_cases setsAppId : entry.SetsAppId program.chars
  · have copied := strncpy_again settings.appId.chars entry.value.chars 7 entry.value.noNul
    refine ⟨1, ?_⟩
    rw [if_pos ((strcmpMatch_iff entry _ _).mpr setsAppId), LogSettings.apply, if_neg setsHost,
      if_pos setsAppId]
    simp only [LogSettings.configuration, CString.array]
    rw [copied]
    rfl
  rw [if_neg fun matched => setsAppId ((strcmpMatch_iff entry _ _).mp matched)]
  by_cases own : entry.OwnPort program.chars
  · have copied := strncpy_again settings.defaultPort.chars entry.value.chars 7 entry.value.noNul
    refine ⟨1, ?_⟩
    rw [if_pos ((strcmpMatch_iff entry _ _).mpr own), LogSettings.apply, if_neg setsHost,
      if_neg setsAppId, if_pos own]
    simp only [LogSettings.configuration, CString.array]
    rw [copied]
    rfl
  · refine ⟨0, ?_⟩
    rw [if_neg fun matched => own ((strcmpMatch_iff entry _ _).mp matched), LogSettings.apply,
      if_neg setsHost, if_neg setsAppId, if_neg own]

/-- The handler of `ca_log` takes every entry, and leaves the settings that they give. -/
theorem handleAll_log (program : CString) (shorter : program.chars.length < maxLenAttribName)
    (settings : LogSettings) (given : List IniEntry) :
    (Inih.handleAll logHandler (settings.configuration program.chars) given).map Prod.fst =
      some ((given.foldl (LogSettings.apply program.chars) settings).configuration
        program.chars) := by
  induction given generalizing settings with
  | nil => rfl
  | cons entry later inductionHypothesis =>
    obtain ⟨result, handled⟩ := logHandler_apply entry program shorter settings
    obtain ⟨rest, called, same⟩ :=
      Option.map_eq_some_iff.mp (inductionHypothesis (settings.apply program.chars entry))
    simp only [Inih.handleAll, Option.bind_eq_bind]
    rw [handled, Option.bind_some, called, Option.bind_some, List.foldl_cons, ← same]
    rfl

/-- A file gives `ca_log` the settings of its entries. -/
theorem readLogConfigFile_settings (appName : CString) (file : List UInt8) :
    readLogConfigFile appName (some file) =
      some ((logFileSettings appName (Inih.entries file)).configuration
        (programName appName).chars, 0) := by
  have opened := iniParse_opened logHandler file
    { logGconfig with appName := padded (programName appName).chars 31 ++ [0] }
  have settings := handleAll_log (programName appName) (programName_shorter appName) .none
    (Inih.entries file)
  obtain ⟨handled, called, config⟩ := Option.map_eq_some_iff.mp settings
  simp only [readLogConfigFile, Option.bind_eq_bind]
  rw [show logGconfig.appName = List.replicate 32 0 from rfl, programName_copied,
    Option.bind_some]
  refine opened.trans ?_
  have start : ({ logGconfig with appName := padded (programName appName).chars 31 ++ [0] } :
      LogConfiguration) = LogSettings.none.configuration (programName appName).chars := rfl
  rw [start, called, Option.map_some, config]
  rfl

end LogReading

section Agreement

variable (program : List UInt8) (given : List IniEntry)

/-- Both programs see the last host and the last identification of a file. -/
theorem shared_settings (settings : Settings) (logSettings : LogSettings)
    (defaultHost : settings.defaultHost = logSettings.defaultHost)
    (appId : settings.appId = logSettings.appId) :
    (given.foldl (Settings.apply program) settings).defaultHost =
        (given.foldl (LogSettings.apply program) logSettings).defaultHost ∧
      (given.foldl (Settings.apply program) settings).appId =
        (given.foldl (LogSettings.apply program) logSettings).appId := by
  have logHost (settings : LogSettings) (entry : IniEntry) :
      (settings.apply program entry).defaultHost =
        if entry.SetsHost then entry.value else settings.defaultHost := by
    rw [LogSettings.apply]
    split
    · rfl
    split
    · rfl
    split <;> rfl
  have logId (settings : LogSettings) (entry : IniEntry) :
      (settings.apply program entry).appId =
        if entry.SetsAppId program then entry.value else settings.appId := by
    by_cases setsAppId : entry.SetsAppId program
    · rw [if_pos setsAppId, LogSettings.apply,
        if_neg (setsAppId_not_setsHost entry program setsAppId), if_pos setsAppId]
    · rw [if_neg setsAppId, LogSettings.apply]
      split
      · rfl
      split <;> rfl
  constructor
  · rw [foldl_last _ Settings.defaultHost IniEntry.SetsHost IniEntry.value
      (apply_defaultHost program), foldl_last _ LogSettings.defaultHost IniEntry.SetsHost
      IniEntry.value logHost, defaultHost]
  · rw [foldl_last _ Settings.appId (fun entry => entry.SetsAppId program) IniEntry.value
      (apply_appId program), foldl_last _ LogSettings.appId (fun entry => entry.SetsAppId program)
      IniEntry.value logId, appId]

/-- `ca_log` takes the value of its last entry, whatever it is. -/
theorem log_port (settings : LogSettings) (nothing : settings.defaultPort = emptyString) :
    (given.foldl (LogSettings.apply program) settings).defaultPort =
      lastValue given fun entry => entry.OwnPort program := by
  have follows (settings : LogSettings) (entry : IniEntry) :
      (settings.apply program entry).defaultPort =
        if entry.OwnPort program then entry.value else settings.defaultPort := by
    by_cases own : entry.OwnPort program
    · rw [if_pos own, LogSettings.apply, if_neg (ownPort_not_setsHost entry program own),
        if_neg (ownPort_not_setsAppId entry program own), if_pos own]
    · rw [if_neg own, LogSettings.apply, if_neg own]
      split
      · rfl
      split <;> rfl
  rw [foldl_last _ LogSettings.defaultPort (fun entry => entry.OwnPort program) IniEntry.value
    follows, nothing]
  rfl

/-- `cfgagent` takes the value of its last entry that gives a port. -/
theorem config_port (settings : Settings) (nothing : settings.myDefaultPort = emptyString) :
    (given.foldl (Settings.apply program) settings).myDefaultPort =
      lastValue given fun entry => entry.GivesPort ∧ entry.name.chars = program := by
  have follows (settings : Settings) (entry : IniEntry) :
      (settings.apply program entry).myDefaultPort =
        if entry.GivesPort ∧ entry.name.chars = program then entry.value
        else settings.myDefaultPort := by
    have added := congrArg Prod.fst (apply_portSection program settings entry)
    refine added.trans ?_
    rw [addPortEntry]
    by_cases gives : entry.GivesPort
    · rw [if_pos gives]
      by_cases own : entry.name.chars = program
      · rw [if_pos own, if_pos ⟨gives, own⟩]
      · rw [if_neg own, if_neg (fun both => own both.2)]
        rfl
    · rw [if_neg gives, if_neg (fun both => gives both.1)]
      rfl
  rw [foldl_last _ Settings.myDefaultPort
    (fun entry => entry.GivesPort ∧ entry.name.chars = program) IniEntry.value follows, nothing]
  rfl

/-- Two strings are the same in an array exactly if what the array can hold of them is. -/
theorem padded_same_iff (left right : CString) (count : Nat) :
    padded left.chars count ++ [0] = padded right.chars count ++ [0] ↔
      left.chars.take count = right.chars.take count := by
  constructor
  · intro same
    have read := congrArg text same
    rw [text_copied, text_copied] at read
    exact Option.some.inj read
  · intro same
    rw [← padded_take left.chars, same, padded_take]

variable (memory : Nat → AppServerPort) (appName : CString)

/-- A file that can be opened is always taken, whatever lines are malformed or unknown, and
gives the settings of its entries, independent of the memory that the records come to be
in. Printed settings are read as they are. A file that cannot be opened leaves the
configuration as it was, but for the name of the program. -/
theorem config_file_settings :
    readIniConfigFile memory appName none =
      some (Settings.none.configuration (programName appName).chars, 1) ∧
    (∀ file, readIniConfigFile memory appName (some file) =
      some ((fileSettings appName (Inih.entries file)).configuration (programName appName).chars,
        0)) ∧
    ∀ given, (∀ entry ∈ given, Inih.Printable entry) →
      readIniConfigFile memory appName (some (Inih.dumped given)) =
        some ((fileSettings appName given).configuration (programName appName).chars, 0) := by
  refine ⟨?_, readIniConfigFile_settings memory appName, ?_⟩
  · simp only [readIniConfigFile, Option.bind_eq_bind]
    rw [show gconfig.appName = List.replicate 32 0 from rfl, programName_copied,
      Option.bind_some]
    rfl
  · intro given printable
    rw [readIniConfigFile_settings, (Inih.entries_dumped given printable).1]

/-- Two programs of one name read the same host and the same identification from a file.
They read the same own port exactly if the last value for it and the last one that is a
port number are the same in the array. -/
theorem programs_agree_iff (file : List UInt8) :
    ∃ config log, readIniConfigFile memory appName (some file) = some (config, 0) ∧
      readLogConfigFile appName (some file) = some (log, 0) ∧
      config.appName = log.appName ∧ config.defaultHost = log.defaultHost ∧
      config.appId = log.appId ∧
      (config.myDefaultPort = log.defaultPort ↔
        (lastValue (Inih.entries file) fun entry =>
            entry.GivesPort ∧ entry.name.chars = (programName appName).chars).chars.take 7 =
          (lastValue (Inih.entries file) fun entry =>
            entry.OwnPort (programName appName).chars).chars.take 7) := by
  have shared := shared_settings (programName appName).chars (Inih.entries file) .none .none rfl
    rfl
  have ownPort := config_port (programName appName).chars (Inih.entries file) .none rfl
  have logPort := log_port (programName appName).chars (Inih.entries file) .none rfl
  refine ⟨_, _, readIniConfigFile_settings memory appName file,
    readLogConfigFile_settings appName file, rfl, ?_, ?_, ?_⟩
  · exact congrArg (fun host : CString => padded host.chars 31 ++ [0]) shared.1
  · exact congrArg (fun appId : CString => padded appId.chars 7 ++ [0]) shared.2
  · rw [← ownPort, ← logPort]
    exact padded_same_iff _ _ 7

end Agreement

end Evlpc
