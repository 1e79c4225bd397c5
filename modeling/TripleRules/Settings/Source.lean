import TripleRules.Settings.Document

/-!
# Where settings come from

The first document found in a list of places, and variables of the environment, which override what
the document says.  The file system is given as a function from paths to contents.
-/

namespace TripleRules

namespace Settings

/-- The places where the settings of an application are looked for: beside the data, among the
user's configurations, and in the user's home. -/
def searchPaths (app configDir homeDir : String) : List String :=
  ["./" ++ app ++ ".toml", configDir ++ "/" ++ app ++ "/config.toml",
    homeDir ++ "/." ++ app ++ "/config.toml"]

def readFlag (s : String) : Bool := Text.lowercase s ∈ ["true", "1", "yes", "on"]

def readCount? (s : String) : Option Nat := Decimal.uint64? s.toList

/-- Applies the variables of the environment, named without what sets those of the application
apart.  A profile goes first, so that single settings override it; the unreadable is ignored. -/
def override (s : Settings) (vars : List (String × String)) : Settings :=
  let s := ((vars.lookup "PROFILE").bind fun p => (s.applyProfile p).toOption).getD s
  let count (name : String) (old : Nat) := ((vars.lookup name).bind readCount?).getD old
  let flag (name : String) (old : Bool) := ((vars.lookup name).map readFlag).getD old
  let r := s.reasoning
  { s with
    logLevel := ((vars.lookup "LOG_LEVEL").bind LogLevel.read?).getD s.logLevel
    reasoning := { r with
      ruleThreshold := count "RULE_THRESHOLD" r.ruleThreshold
      derivationLogging := flag "DERIVATION_LOGGING" r.derivationLogging
      trace := flag "TRACE" r.trace
      pumpBatch := count "PUMP_BATCH" r.pumpBatch
      mode := ((vars.lookup "MODE").bind Mode.read?).getD r.mode } }

def readAt (files : String → Option String) (path : String) : Except SettingsError Settings :=
  match files path with
  | some content => read path content
  | none => .error (.unreadable path "No such file or directory (os error 2)")

/-- Reads the first document that exists, or starts from the standard settings, applies the
environment and checks the outcome. -/
def load (files : String → Option String) (paths : List String) (vars : List (String × String)) :
    Except SettingsError Settings := do
  let found ←
    match paths.find? fun p => (files p).isSome with
    | some path => readAt files path
    | none => pure {}
  let s := found.override vars
  s.validate
  return s

end Settings

end TripleRules
