import TripleRules.Error.Fault
import TripleRules.Text.Casing

/-!
# Settings

How a reasoner is tuned: which rules it uses, how far forward rules may go, how much it records, and
named profiles that set several of these at once.
-/

namespace TripleRules

inductive LogLevel where
  | quiet
  | normal
  | verbose
  | debug
  deriving DecidableEq, Inhabited

namespace LogLevel

def all : List LogLevel := [quiet, normal, verbose, debug]

def name : LogLevel → String
  | quiet => "quiet"
  | normal => "normal"
  | verbose => "verbose"
  | debug => "debug"

def read? (s : String) : Option LogLevel :=
  match Text.lowercase s with
  | "quiet" | "q" | "0" => some quiet
  | "normal" | "n" | "1" => some normal
  | "verbose" | "v" | "2" => some verbose
  | "debug" | "d" | "3" => some debug
  | _ => none

def threshold : LogLevel → String
  | quiet => "ERROR"
  | normal => "WARN"
  | verbose => "DEBUG"
  | debug => "TRACE"

end LogLevel

/-- Which rules take part in the reasoning.  Rules installed by forward rules are used wherever
forward rules are. -/
inductive Mode where
  | hybrid
  | forward
  | backward
  deriving DecidableEq, Inhabited

namespace Mode

def all : List Mode := [hybrid, forward, backward]

def name : Mode → String
  | hybrid => "hybrid"
  | forward => "forward"
  | backward => "backward"

def read? (s : String) : Option Mode :=
  match Text.lowercase s with
  | "hybrid" | "both" => some hybrid
  | "forward" | "fwd" => some forward
  | "backward" | "bwd" | "tabled" => some backward
  | _ => none

def runsForward : Mode → Bool
  | backward => false
  | _ => true

def runsBackward : Mode → Bool
  | forward => false
  | _ => true

end Mode

inductive Profile where
  | default
  | fast
  | thorough
  | custom
  deriving DecidableEq

namespace Profile

def all : List Profile := [default, fast, thorough, custom]

def name : Profile → String
  | default => "default"
  | fast => "fast"
  | thorough => "thorough"
  | custom => "custom"

def read? (s : String) : Option Profile :=
  match Text.lowercase s with
  | "default" | "" => some default
  | "fast" | "performance" | "perf" => some fast
  | "thorough" | "complete" | "full" => some thorough
  | "custom" => some custom
  | _ => none

def ruleThreshold : Profile → Nat
  | default | custom => 10000
  | fast => 1000
  | thorough => 1000000

def description : Profile → String
  | default => "Hybrid reasoning with a 10000 firing threshold"
  | fast => "Low firing threshold, large pump batches, no derivations"
  | thorough => "High firing threshold with derivation logging"
  | custom => "User-defined profile"

end Profile

structure ReasoningSettings where
  profile : Profile := .default
  /-- How many times forward rules may fire; without limit if zero. -/
  ruleThreshold : Nat := 10000
  /-- Whether a derivation is kept for every triple deduced. -/
  derivationLogging : Bool := false
  trace : Bool := false
  /-- How many answers a search may find before it is another one's turn. -/
  pumpBatch : Nat := 64
  mode : Mode := .hybrid
  deriving DecidableEq, Inhabited

/-- The setting that cannot be used, with what is wrong: a search must be allowed at least one
answer. -/
def ReasoningSettings.flaw? (s : ReasoningSettings) : Option (String × String) :=
  if s.pumpBatch = 0 then some ("reasoning.pump_batch", "must be at least 1") else none

/-- A profile that users define; what it does not mention it leaves as it is. -/
structure ProfileSettings where
  ruleThreshold : Option Nat := none
  derivationLogging : Option Bool := none
  pumpBatch : Option Nat := none
  mode : Option Mode := none
  description : Option String := none
  deriving DecidableEq, Inhabited

structure Settings where
  logLevel : LogLevel := .normal
  reasoning : ReasoningSettings := {}
  profiles : List (String × ProfileSettings) := []
  deriving DecidableEq, Inhabited

/-- Why a configuration cannot be used.  What is wrong with a document or a value that cannot be
written is told by whoever read or wrote it. -/
inductive SettingsError where
  | unreadable (path reason : String)
  | malformed (path reason : String)
  | unwritable (reason : String)
  | unknownProfile (name : String)
  | invalidValue (key problem : String)
  deriving DecidableEq, Inhabited

namespace SettingsError

def code : SettingsError → ErrorCode
  | unreadable .. => .configNotFound
  | malformed .. => .invalidConfigSyntax
  | unwritable _ => .configError
  | unknownProfile _ => .unknownProfile
  | invalidValue .. => .invalidConfigValue

def message : SettingsError → String
  | unreadable path reason => "IO error reading " ++ path ++ ": " ++ reason
  | malformed path reason => "Parse error in " ++ path ++ ": " ++ reason
  | unwritable reason => "Serialization error: " ++ reason
  | unknownProfile name => "Unknown profile: " ++ name
  | invalidValue key problem => (Fault.invalidSetting key problem).message

def report (e : SettingsError) : ErrorReport := { code := e.code, message := e.message }

end SettingsError

namespace Settings

def validate (s : Settings) : Except SettingsError Unit :=
  match s.reasoning.flaw? with
  | some (key, problem) => .error (.invalidValue key problem)
  | none => .ok ()

def withProfile (s : Settings) (p : Profile) : Settings :=
  let r := { s.reasoning with profile := p, ruleThreshold := p.ruleThreshold }
  let r := match p with
    | .fast => { r with derivationLogging := false, trace := false, pumpBatch := 256 }
    | .thorough => { r with derivationLogging := true, pumpBatch := 16 }
    | _ => r
  { s with reasoning := r }

def withCustom (s : Settings) (p : ProfileSettings) : Settings :=
  let r := s.reasoning
  { s with reasoning := { r with
      profile := .custom
      ruleThreshold := p.ruleThreshold.getD r.ruleThreshold
      derivationLogging := p.derivationLogging.getD r.derivationLogging
      pumpBatch := p.pumpBatch.getD r.pumpBatch
      mode := p.mode.getD r.mode } }

/-- Applies a profile by name.  The built-in profiles go before those of the same name. -/
def applyProfile (s : Settings) (name : String) : Except SettingsError Settings :=
  match Profile.read? name with
  | some p => .ok (s.withProfile p)
  | none =>
    match s.profiles.lookup name with
    | some p => .ok (s.withCustom p)
    | none => .error (.unknownProfile name)

def availableProfiles (s : Settings) : List (String × String) :=
  [Profile.default, .fast, .thorough].map (fun p => (p.name, p.description))
    ++ s.profiles.map fun (name, p) => (name, p.description.getD "Custom profile")

end Settings

end TripleRules
