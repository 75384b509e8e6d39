import BehaviorTree.Config.Basic
import BehaviorTree.Json.Printer
import BehaviorTree.Yaml.Reader

/-!
# Configurations in documents

A configuration is read from a document that maps the names of settings to their values, and it is
written as a message with a member for every setting. Settings that a document leaves out keep
their standard values, and what else it holds is not looked at. As a record it may also be a
sequence, which holds the settings in the order in which they are written.

Times are numbers of seconds. A name is the characters of any scalar, so that `5` is a name.
-/

namespace BehaviorTree

/-- Why a document is no configuration. -/
inductive ConfigError where
  /-- The text is no document, or a setting in it does not fit. -/
  | document
  | zeroPeriod

def ConfigError.message : ConfigError → String
  | document => "Configuration error: malformed document"
  | zeroPeriod => "Configuration error: tick_period must be positive"

namespace YamlNode

/-- The settings with the given names among entries, unless a name stands twice or a key is no
scalar. -/
def settingsOfEntries? (names : List String) :
    List (YamlNode × YamlNode) → Option (List (String × YamlNode))
  | [] => some []
  | (key, value) :: entries => do
    let name ← key.asScalar?
    let settings ← settingsOfEntries? names entries
    if !names.contains name then some settings
    else if settings.any (·.1 == name) then none
    else some ((name, value) :: settings)

/-- The settings with the given names that a node holds. -/
def settings? (names : List String) : YamlNode → Option (List (String × YamlNode))
  | mapping entries => settingsOfEntries? names entries
  | sequence items => if items.length ≤ names.length then some (names.zip items) else none
  | scalar _ _ => none

def asBool? : YamlNode → Option Bool
  | scalar text plain =>
    match resolveScalar? text plain with
    | some (.bool value) => some value
    | _ => none
  | _ => none

def asNatural? (bound : Nat) : YamlNode → Option Nat
  | scalar text plain =>
    match resolveScalar? text plain with
    | some (.integer number) =>
      if 0 ≤ number.1 ∧ number.1 < bound then some number.1.toNat else none
    | _ => none
  | _ => none

def asNumber? : YamlNode → Option Binary64
  | scalar text plain =>
    match resolveScalar? text plain with
    | some (.integer number) => some (Binary64.ofInt number.1)
    | some (.real number) => some number
    | _ => none
  | _ => none

/-- A number of seconds, which is finite and not negative and fits. -/
def asSeconds? (node : YamlNode) : Option Duration :=
  node.asNumber?.bind fun seconds =>
    if seconds.isFinite && (!seconds.isNegative || seconds.magnitude == 0) then
      Duration.ofSeconds? seconds
    else none

def asOptionalSeconds? (node : YamlNode) : Option (Option Duration) :=
  if node.isNull then some none else node.asSeconds?.map some

end YamlNode

/-- The setting with a name, or its standard value if it is left out. -/
def settingOr? {α : Type} (settings : List (String × YamlNode)) (name : String) (standard : α)
    (read : YamlNode → Option α) : Option α :=
  match settings.find? (·.1 == name) with
  | some (_, node) => read node
  | none => some standard

/-- How often requests of one kind are tried, under `max_attempts`. -/
def attemptsOfNode? (node : YamlNode) : Option UInt32 := do
  let settings ← node.settings? ["max_attempts"]
  let (_, attempts) ← settings.head?
  let attempts ← attempts.asNatural? UInt32.size
  return UInt32.ofNat attempts

def RetryPolicy.ofNode? (node : YamlNode) : Option RetryPolicy := do
  let settings ← node.settings? ["start", "poll"]
  let standard := MissionConfig.standard.retry
  let start ← settingOr? settings "start" standard.start attemptsOfNode?
  let poll ← settingOr? settings "poll" standard.poll attemptsOfNode?
  return ⟨start, poll⟩

namespace MissionConfig

/-- The names of the settings in the order in which they are written. -/
def settingNames : List String :=
  ["name", "tick_period", "restart_on_play", "max_reports", "default_timeout", "retry",
    "lease_owner"]

def ofNode? (node : YamlNode) : Option MissionConfig := do
  let settings ← node.settings? settingNames
  let name ← settingOr? settings "name" standard.name YamlNode.asScalar?
  let tickPeriod ← settingOr? settings "tick_period" standard.tickPeriod YamlNode.asSeconds?
  let restartOnPlay ←
    settingOr? settings "restart_on_play" standard.restartOnPlay YamlNode.asBool?
  let maxReports ← settingOr? settings "max_reports" standard.maxReports fun node =>
    (node.asNatural? UInt64.size).map UInt64.ofNat
  let defaultTimeout ←
    settingOr? settings "default_timeout" standard.defaultTimeout YamlNode.asOptionalSeconds?
  let retry ← settingOr? settings "retry" standard.retry RetryPolicy.ofNode?
  let leaseOwner ← settingOr? settings "lease_owner" standard.leaseOwner YamlNode.asScalar?
  return { name, tickPeriod, restartOnPlay, maxReports, defaultTimeout, retry, leaseOwner }

/-- The configuration that the document in a whole text holds. -/
def ofYamlText (text : String) : Except ConfigError MissionConfig :=
  match (YamlNode.ofText? text).bind ofNode? with
  | some config => if config.tickPeriod = .zero then .error .zeroPeriod else .ok config
  | none => .error .document

/-- The text of an object whose members have texts already, in the given order. -/
def printMembers (members : List (String × String)) : String :=
  "\x7b" ++ ",".intercalate (members.map fun (name, text) => Json.printText name ++ ":" ++ text) ++
    "\x7d"

def printSeconds (duration : Duration) : String :=
  Json.numberStyle.write duration.toSeconds

def printAttempts (attempts : UInt32) : String :=
  printMembers [("max_attempts", toString attempts.toNat)]

/-- The text of a configuration, with its settings in the order in which they are written. -/
def print (config : MissionConfig) : String :=
  printMembers
    [("name", Json.printText config.name),
      ("tick_period", printSeconds config.tickPeriod),
      ("restart_on_play", if config.restartOnPlay then "true" else "false"),
      ("max_reports", toString config.maxReports.toNat),
      ("default_timeout", (config.defaultTimeout.map printSeconds).getD "null"),
      ("retry", printMembers
        [("start", printAttempts config.retry.start), ("poll", printAttempts config.retry.poll)]),
      ("lease_owner", Json.printText config.leaseOwner)]

end MissionConfig

end BehaviorTree
