import TripleRules.Settings.Basic
import TripleRules.Text.Toml.Writing

/-!
# Settings as documents

Settings are read from and written to TOML.  A document may leave out whatever it likes and hold
keys that mean nothing here, but a value that is there has to be of the right kind.  An array is
taken for the fields of a table in their order.
-/

namespace TripleRules

open Text.Toml (Value Table)

namespace Settings

/-- The fields of a value that stands for a record with the given field names. -/
def fields? (names : List String) : Value → Option Table
  | .table entries => some entries
  | .array items => some (names.zip items)
  | _ => none

def field? {α : Type} (read : Value → Option α) (t : Table) (key : String) :
    Option (Option α) :=
  match t.lookup key with
  | none => some none
  | some v => (read v).map some

def natural? : Value → Option Nat
  | .integer n => if 0 ≤ n then some n.toNat else none
  | _ => none

def boolean? : Value → Option Bool
  | .boolean b => some b
  | _ => none

def string? : Value → Option String
  | .string s => some s
  | _ => none

/-- One of the given values by its name.  A table that has nothing but an empty value under the name
means the same. -/
def named? {α : Type} (all : List α) (name : α → String) : Value → Option α
  | .string s => all.find? (name · == s)
  | .table [(key, .table [])] | .table [(key, .array [])] => all.find? (name · == key)
  | _ => none

def readGeneral (v : Value) : Option LogLevel := do
  let t ← fields? ["log_level"] v
  let level ← field? (named? LogLevel.all LogLevel.name) t "log_level"
  return level.getD .normal

def readReasoning (v : Value) : Option ReasoningSettings := do
  let t ← fields?
    ["profile", "rule_threshold", "derivation_logging", "trace", "pump_batch", "mode"] v
  let profile ← field? (named? Profile.all Profile.name) t "profile"
  let ruleThreshold ← field? natural? t "rule_threshold"
  let derivationLogging ← field? boolean? t "derivation_logging"
  let trace ← field? boolean? t "trace"
  let pumpBatch ← field? natural? t "pump_batch"
  let mode ← field? (named? Mode.all Mode.name) t "mode"
  let standard : ReasoningSettings := {}
  return {
    profile := profile.getD standard.profile
    ruleThreshold := ruleThreshold.getD standard.ruleThreshold
    derivationLogging := derivationLogging.getD standard.derivationLogging
    trace := trace.getD standard.trace
    pumpBatch := pumpBatch.getD standard.pumpBatch
    mode := mode.getD standard.mode }

def readProfile (v : Value) : Option ProfileSettings := do
  let t ← fields? ["rule_threshold", "derivation_logging", "pump_batch", "mode", "description"] v
  return {
    ruleThreshold := ← field? natural? t "rule_threshold"
    derivationLogging := ← field? boolean? t "derivation_logging"
    pumpBatch := ← field? natural? t "pump_batch"
    mode := ← field? (named? Mode.all Mode.name) t "mode"
    description := ← field? string? t "description" }

def readProfiles : Value → Option (List (String × ProfileSettings))
  | .table entries => entries.mapM fun (name, v) => (readProfile v).map (name, ·)
  | _ => none

def ofTable? (t : Table) : Option Settings := do
  let logLevel ← field? readGeneral t "general"
  let reasoning ← field? readReasoning t "reasoning"
  let profiles ← field? readProfiles t "profiles"
  return {
    logLevel := logLevel.getD .normal
    reasoning := reasoning.getD {}
    profiles := profiles.getD [] }

def read (path content : String) : Except SettingsError Settings :=
  match Text.Toml.read? content with
  | none => .error (.malformed path "not a TOML document")
  | some t =>
    match ofTable? t with
    | none => .error (.malformed path "a value of the wrong kind")
    | some s => .ok s

/-- A number as documents hold it: it must fit a signed number of sixty-four bits. -/
def naturalText (n : Nat) : Except SettingsError String :=
  if Decimal.fitsInt64 n then .ok n.repr else .error (.unwritable "number out of range")

def booleanText (b : Bool) : String := if b then "true" else "false"

def reasoningSection (r : ReasoningSettings) : Except SettingsError String := do
  return Text.Toml.tableSection ["reasoning"]
    [("profile", Text.Toml.quote r.profile.name),
      ("rule_threshold", ← naturalText r.ruleThreshold),
      ("derivation_logging", booleanText r.derivationLogging),
      ("trace", booleanText r.trace),
      ("pump_batch", ← naturalText r.pumpBatch),
      ("mode", Text.Toml.quote r.mode.name)]

def profileSection (name : String) (p : ProfileSettings) : Except SettingsError String := do
  let threshold ← p.ruleThreshold.mapM naturalText
  let batch ← p.pumpBatch.mapM naturalText
  return Text.Toml.tableSection ["profiles", name]
    (threshold.toList.map (("rule_threshold", ·))
      ++ p.derivationLogging.toList.map (fun b => ("derivation_logging", booleanText b))
      ++ batch.toList.map (("pump_batch", ·))
      ++ p.mode.toList.map (fun m => ("mode", Text.Toml.quote m.name))
      ++ p.description.toList.map (fun d => ("description", Text.Toml.quote d)))

def write (s : Settings) : Except SettingsError String := do
  let general := Text.Toml.tableSection ["general"] [("log_level", Text.Toml.quote s.logLevel.name)]
  let reasoning ← reasoningSection s.reasoning
  let profiles ←
    if s.profiles = [] then pure [Text.Toml.tableSection ["profiles"] []]
    else s.profiles.mapM fun (name, p) => profileSection name p
  return Text.Toml.document (general :: reasoning :: profiles)

end Settings

end TripleRules
