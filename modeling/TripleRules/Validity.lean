import TripleRules.Term.Text
import TripleRules.Text.Json

/-!
# Validity reports

What rules and engines find wrong with a graph.  A rule reports through a conclusion whose object is
`error(description, …)` or `warn(description, …)`, or a plain description.
-/

namespace TripleRules.Validity

inductive Severity where
  | error
  | warning
  deriving DecidableEq, Inhabited

def Severity.all : List Severity := [.error, .warning]

def Severity.name : Severity → String
  | error => "error"
  | warning => "warning"

structure Entry where
  severity : Severity
  /-- What reports it: a rule, or some condition of an engine. -/
  kind : String
  description : String
  /-- The node that is at fault. -/
  culprit : Option String := none
  details : List String := []
  deriving DecidableEq, Inhabited

/-- The problems found, none of them twice. -/
structure Report where
  entries : List Entry
  deriving DecidableEq, Inhabited

namespace Entry

def violationKind : String := "violation"

/-- The entry that a violation stands for: the subject is at fault, and the object says how. -/
def ofViolation (t : Triple) : Entry :=
  let culprit := some t.subject.lexical
  match t.object with
  | .compound f args =>
    { severity := if f.map Char.toLower = "warn" then .warning else .error
      kind := violationKind
      description := (args.head?.map Term.lexical).getD f
      culprit := culprit
      details := args.tail.map Term.lexical }
  | object =>
    { severity := .error
      kind := violationKind
      description := object.lexical
      culprit := culprit }

def text (e : Entry) : String :=
  "[" ++ e.severity.name ++ "] " ++ e.kind ++ ": " ++ e.description
    ++ (e.culprit.map fun c => " (culprit " ++ c ++ ")").getD ""

def json (e : Entry) : Text.Json :=
  .object ([("severity", .string e.severity.name), ("kind", .string e.kind),
      ("description", .string e.description)]
    ++ e.culprit.toList.map (fun c => ("culprit", .string c))
    ++ if e.details = [] then [] else [("details", .array (e.details.map .string))])

end Entry

namespace Report

def empty : Report := ⟨[]⟩

def add (r : Report) (e : Entry) : Report := if e ∈ r.entries then r else ⟨r.entries ++ [e]⟩

def addAll (r : Report) (es : List Entry) : Report := es.foldl add r

def size (r : Report) : Nat := r.entries.length

def ofSeverity (r : Report) (s : Severity) : List Entry := r.entries.filter (·.severity = s)

def errors (r : Report) : List Entry := r.ofSeverity .error

def warnings (r : Report) : List Entry := r.ofSeverity .warning

/-- Whether there are no errors; there may be warnings. -/
def isValid (r : Report) : Bool := r.errors.isEmpty

def isClean (r : Report) : Bool := r.entries.isEmpty

def text (r : Report) : String :=
  let verdict :=
    if r.isValid then "Validity: PASSED (" ++ r.warnings.length.repr ++ " warning(s))\n"
    else "Validity: FAILED (" ++ r.errors.length.repr ++ " error(s))\n"
  verdict ++ String.join (r.entries.map fun e => "  " ++ e.text ++ "\n")

def json (r : Report) : Text.Json := .object [("entries", .array (r.entries.map Entry.json))]

end Report

end TripleRules.Validity
