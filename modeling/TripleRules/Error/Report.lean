import TripleRules.Text.Json

/-!
# Error reports

The form in which errors leave the library: a code, a message, and if need be a context and a hint.
A report is written as text or as a JSON document.
-/

namespace TripleRules

inductive ErrorCode where
  | ruleError
  | malformedRule
  | unsafeVariable
  | unknownBuiltin
  | builtinArity
  | reasoningError
  | builtinFailed
  | graphClosed
  | nonGroundTriple
  | configError
  | configNotFound
  | invalidConfigSyntax
  | unknownProfile
  | invalidConfigValue
  | internalError
  deriving DecidableEq, Inhabited

namespace ErrorCode

def all : List ErrorCode :=
  [ruleError, malformedRule, unsafeVariable, unknownBuiltin, builtinArity, reasoningError,
    builtinFailed, graphClosed, nonGroundTriple, configError, configNotFound, invalidConfigSyntax,
    unknownProfile, invalidConfigValue, internalError]

/-- The number of an error.  The thousands tell the family. -/
def number : ErrorCode → Nat
  | ruleError => 1000
  | malformedRule => 1001
  | unsafeVariable => 1002
  | unknownBuiltin => 1003
  | builtinArity => 1004
  | reasoningError => 2000
  | builtinFailed => 2001
  | graphClosed => 2003
  | nonGroundTriple => 3001
  | configError => 7000
  | configNotFound => 7001
  | invalidConfigSyntax => 7002
  | unknownProfile => 7003
  | invalidConfigValue => 7004
  | internalError => 9000

def name : ErrorCode → String
  | ruleError => "RULE_ERROR"
  | malformedRule => "MALFORMED_RULE"
  | unsafeVariable => "UNSAFE_VARIABLE"
  | unknownBuiltin => "UNKNOWN_BUILTIN"
  | builtinArity => "BUILTIN_ARITY"
  | reasoningError => "REASONING_ERROR"
  | builtinFailed => "BUILTIN_FAILED"
  | graphClosed => "GRAPH_CLOSED"
  | nonGroundTriple => "NON_GROUND_TRIPLE"
  | configError => "CONFIG_ERROR"
  | configNotFound => "CONFIG_NOT_FOUND"
  | invalidConfigSyntax => "INVALID_CONFIG_SYNTAX"
  | unknownProfile => "UNKNOWN_PROFILE"
  | invalidConfigValue => "INVALID_CONFIG_VALUE"
  | internalError => "INTERNAL_ERROR"

def description : ErrorCode → String
  | ruleError => "Rule error"
  | malformedRule => "Malformed rule"
  | unsafeVariable => "Unsafe variable in rule head"
  | unknownBuiltin => "Unknown builtin"
  | builtinArity => "Builtin arity mismatch"
  | reasoningError => "Reasoning error"
  | builtinFailed => "Builtin evaluation failed"
  | graphClosed => "Inference graph is closed"
  | nonGroundTriple => "Triple is not ground"
  | configError => "Configuration error"
  | configNotFound => "Configuration file not found"
  | invalidConfigSyntax => "Invalid configuration syntax"
  | unknownProfile => "Unknown profile"
  | invalidConfigValue => "Invalid configuration value"
  | internalError => "Internal error"

/-- Whether the error lies in the rules that a reasoner was given. -/
def isRuleConfig (c : ErrorCode) : Bool := c.number / 1000 == 1

def ofName? (s : String) : Option ErrorCode := all.find? (·.name == s)

end ErrorCode

structure ErrorContext where
  fields : List (String × String) := []
  location : Option String := none
  causes : List String := []
  deriving DecidableEq, Inhabited

structure ErrorReport where
  code : ErrorCode
  message : String
  context : Option ErrorContext := none
  hint : Option String := none
  deriving DecidableEq, Inhabited

/-- The fields with one set to a value, in the place it had if it was set before. -/
def setField (key value : String) : List (String × String) → List (String × String)
  | [] => [(key, value)]
  | (k, v) :: rest => if k = key then (key, value) :: rest else (k, v) :: setField key value rest

namespace ErrorContext

def withField (c : ErrorContext) (key value : String) : ErrorContext :=
  { c with fields := setField key value c.fields }

def withCause (c : ErrorContext) (cause : String) : ErrorContext :=
  { c with causes := c.causes ++ [cause] }

def withLocation (c : ErrorContext) (location : String) : ErrorContext :=
  { c with location := some location }

def json (c : ErrorContext) : Text.Json :=
  let fields := if c.fields = [] then [] else
    [("fields", Text.Json.object (c.fields.map fun (k, v) => (k, .string v)))]
  let location := c.location.toList.map fun l => ("location", Text.Json.string l)
  let causes := if c.causes = [] then [] else
    [("causes", Text.Json.array (c.causes.map .string))]
  .object (fields ++ location ++ causes)

end ErrorContext

namespace ErrorReport

def mapContext (r : ErrorReport) (f : ErrorContext → ErrorContext) : ErrorReport :=
  { r with context := some (f (r.context.getD {})) }

def withField (r : ErrorReport) (key value : String) : ErrorReport :=
  r.mapContext (·.withField key value)

def withCause (r : ErrorReport) (cause : String) : ErrorReport := r.mapContext (·.withCause cause)

def withLocation (r : ErrorReport) (location : String) : ErrorReport :=
  r.mapContext (·.withLocation location)

def withHint (r : ErrorReport) (hint : String) : ErrorReport := { r with hint := some hint }

def text (r : ErrorReport) : String :=
  let location := ((r.context.bind (·.location)).map (" at " ++ ·)).getD ""
  let causes := (r.context.map (·.causes)).getD []
  let causeLines := if causes = [] then "" else
    "\nCaused by:" ++ String.join (causes.map ("\n  - " ++ ·))
  let hint := (r.hint.map ("\nHint: " ++ ·)).getD ""
  "[" ++ r.code.number.repr ++ "] " ++ r.message ++ location ++ causeLines ++ hint

def json (r : ErrorReport) : Text.Json :=
  .object ([("code", .string r.code.name), ("message", .string r.message)]
    ++ r.context.toList.map (fun c => ("context", c.json))
    ++ r.hint.toList.map (fun h => ("hint", .string h)))

end ErrorReport

end TripleRules
